import Hitrace.HitraceDump.ArgString
import Mathlib.Algebra.BigOperators.Group.List.Basic

namespace Hitrace

open Library

/-! A list of tags or tag groups in an argument string, as it is written and as `ParseArgs`
reads it. -/

def ArgName.text : ArgName → List Char
  | .tags => "tags".toList
  | .tagGroups => "tagGroups".toList
  | .clockType => "clockType".toList
  | .bufferSize => "bufferSize".toList
  | .overwrite => "overwrite".toList
  | .output => "output".toList
  | .fileSize => "fileSize".toList
  | .fileLimit => "fileLimit".toList
  | .appPid => "appPid".toList
  | .filterPids => "filterPids".toList

inductive TagKind
  | tags
  | tagGroups
  deriving DecidableEq, Repr

namespace TagKind

def argName : TagKind → ArgName
  | .tags => .tags
  | .tagGroups => .tagGroups

def get (traceParams : TraceParams) : TagKind → List (List Char)
  | .tags => traceParams.tags
  | .tagGroups => traceParams.tagGroups

def known (environment : OpenEnvironment) (name : List Char) : TagKind → Bool
  | .tags => (findTag environment name).isSome
  | .tagGroups => (findTagGroup environment name).isSome

end TagKind

def spaces (count : Nat) : List Char :=
  List.replicate count ' '

/-- Names with a comma between any two, and a number of spaces behind each comma. -/
inductive SpacedNames
  | none
  | names (first : List Char) (rest : List (Nat × List Char))
  deriving DecidableEq, Repr

namespace SpacedNames

def list : SpacedNames → List (List Char)
  | .none => []
  | .names first rest => first :: rest.map Prod.snd

def restText (rest : List (Nat × List Char)) : List Char :=
  rest.flatMap fun gap => ',' :: (spaces gap.1 ++ gap.2)

def text : SpacedNames → List Char
  | .none => []
  | .names first rest => first ++ restText rest

/-- The spaces behind the commas. -/
def gaps : SpacedNames → Nat
  | .none => 0
  | .names _ rest => (rest.map Prod.fst).sum

end SpacedNames

/-- Another item of the argument string. -/
structure ArgItem where
  name : ArgName
  value : List Char
deriving DecidableEq, Repr

def ArgItem.text (item : ArgItem) : List Char :=
  item.name.text ++ ':' :: item.value

/-- The value is a word that a separator may follow, and one that `ParseArgs` takes. -/
structure ArgItem.WellFormed (environment : OpenEnvironment) (item : ArgItem) : Prop where
  solid : ' ' ∉ item.value
  ends : ∃ last, item.value.getLast? = some last ∧ last ≠ ':' ∧ last ≠ ','
  appPid : item.name = .appPid → setCmdTraceIntParams item.value ≠ 0
  known : ∀ kind : TagKind, item.name = kind.argName →
    ∀ name ∈ split item.value ',', kind.known environment name = true

/-- The argument string, with the items in front of the list and those behind it, each with
the spaces past the first that separate it from the list's side. -/
structure TagArgs where
  kind : TagKind
  colonSpaces : Nat
  spaced : SpacedNames
  before : List (ArgItem × Nat) := []
  after : List (Nat × ArgItem) := []
deriving DecidableEq, Repr

namespace TagArgs

def beforeText (before : List (ArgItem × Nat)) : List Char :=
  before.flatMap fun item => item.1.text ++ spaces (item.2 + 1)

def afterText (after : List (Nat × ArgItem)) : List Char :=
  after.flatMap fun item => spaces (item.1 + 1) ++ item.2.text

def listText (args : TagArgs) : List Char :=
  args.kind.argName.text ++ ':' :: (spaces args.colonSpaces ++ args.spaced.text)

def text (args : TagArgs) : List Char :=
  beforeText args.before ++ (args.listText ++ afterText args.after)

/-- The list by itself. -/
def alone (args : TagArgs) : TagArgs :=
  { args with before := [], after := [] }

/-- `ParseArgs` returns true with the list. -/
def Parsed (environment : OpenEnvironment) (appPid : List Char) (args : TagArgs) : Prop :=
  ∃ traceParams,
    (parseArgs environment args.text (TraceGlobals.uninitializedParams environment) appPid).1 =
        some traceParams ∧
      args.kind.get traceParams = args.spaced.list

/-- The names are known and words, and the other items are well-formed and no list of the
same kind. -/
structure WellFormed (environment : OpenEnvironment) (args : TagArgs) : Prop where
  known : ∀ name ∈ args.spaced.list, args.kind.known environment name = true
  word : ∀ name ∈ args.spaced.list, ' ' ∉ name ∧ ',' ∉ name ∧ ':' ∉ name
  before : ∀ item ∈ args.before,
    item.1.WellFormed environment ∧ item.1.name ≠ args.kind.argName
  after : ∀ item ∈ args.after,
    item.2.WellFormed environment ∧ item.2.name ≠ args.kind.argName

/-- No loop runs out of rounds, and no list ends with a colon or a comma that takes the
spaces behind the list. -/
def Kept (args : TagArgs) : Prop :=
  match args.spaced with
  | .none =>
      match args.after with
      | [] => True
      | item :: _ => 30 < args.colonSpaces + (item.1 + 1)
  | .names _ _ =>
      args.colonSpaces ≤ 30 ∧ args.spaced.gaps ≤ 30 ∧ args.spaced.list.getLast? ≠ some []

end TagArgs

namespace TagArgs

/-! The items that a text is split into. -/

variable {environment : OpenEnvironment}

theorem lookup_text (name : ArgName) : ArgName.all.lookup name.text = some name := by
  cases name <;> rfl

theorem text_solid (name : ArgName) :
    ' ' ∉ name.text ∧ ',' ∉ name.text ∧ ':' ∉ name.text := by
  cases name <;> decide

/-- The list that a name and a value write. -/
def namesWritten (kind : TagKind) (name : ArgName) (value : List Char) :
    Option (List (List Char)) :=
  if name = kind.argName then some (split value ',') else none

def itemNames (kind : TagKind) : List Char → Option (List (List Char)) :=
  itemWritten (namesWritten kind)

def lists (kind : TagKind) (items : List (List Char)) : List (List Char) :=
  (items.filterMap (itemNames kind)).getLast?.getD []

theorem get_setArg (kind : TagKind) (name : ArgName) (value : List Char)
    (traceParams : TraceParams) :
    kind.get (setArg name value traceParams) =
      (namesWritten kind name value).getD (kind.get traceParams) := by
  cases kind <;> cases name <;> rfl

theorem splitItem_text (name : ArgName) (value : List Char) :
    splitItem (name.text ++ ':' :: value) = some (name.text, value) :=
  splitItem_colon (text_solid name).2.2 value

theorem itemNames_text (kind : TagKind) (name : ArgName) (value : List Char) :
    itemNames kind (name.text ++ ':' :: value) = namesWritten kind name value := by
  rw [itemNames, itemWritten, splitItem_text, Option.bind_some, lookup_text, Option.bind_some]

theorem itemNames_free (kind : TagKind) {item : List Char} (hitem : ':' ∉ item) :
    itemNames kind item = none := by
  rw [itemNames, itemWritten, splitItem_free hitem, Option.bind_none]

theorem itemAccepted_text {name : ArgName} {value : List Char}
    (happPid : name = .appPid → setCmdTraceIntParams value ≠ 0) :
    itemAccepted (name.text ++ ':' :: value) = true := by
  rw [itemAccepted, splitItem_text]
  dsimp only
  rw [lookup_text]
  cases name with
  | appPid => simpa using happPid rfl
  | _ => rfl

theorem parseItems_lists (kind : TagKind) {items : List (List Char)} {appPid : List Char}
    {parsed : TraceParams}
    (hparsed : (parseItems items (TraceGlobals.uninitializedParams environment) appPid).1 =
      some parsed) : kind.get parsed = lists kind items := by
  have hstart : kind.get (TraceGlobals.uninitializedParams environment) = [] := by
    cases kind <;> rfl
  rw [lists, ← hstart]
  exact @parseItems_written _ (fun traceParams => kind.get traceParams) (namesWritten kind)
    (get_setArg kind) _ _ _ _ hparsed

theorem checks_iff {parsed : TraceParams} :
    (checkTags environment parsed.tags && checkTagGroup environment parsed.tagGroups) = true ↔
      ∀ kind : TagKind, ∀ name ∈ kind.get parsed, kind.known environment name = true := by
  rw [Bool.and_eq_true, checkTags, checkTagGroup, List.all_eq_true, List.all_eq_true]
  constructor
  · rintro ⟨htags, hgroups⟩ kind
    cases kind with
    | tags => exact htags
    | tagGroups => exact hgroups
  · intro hknown
    exact ⟨hknown .tags, hknown .tagGroups⟩

/-- What `ParseArgs` answers is a matter of the items. -/
theorem parsed_iff {args : TagArgs} {appPid : List Char} :
    args.Parsed environment appPid ↔
      (∀ item ∈ argList args.text, itemAccepted item = true) ∧
        (∀ kind : TagKind, ∀ name ∈ lists kind (argList args.text),
          kind.known environment name = true) ∧
        lists args.kind (argList args.text) = args.spaced.list := by
  rw [Parsed, parseArgs, ← parseItems_isSome_iff (argList args.text)
    (TraceGlobals.uninitializedParams environment) appPid]
  have hlists (kind : TagKind) (parsed : TraceParams) := @parseItems_lists environment kind
    (argList args.text) appPid parsed
  cases hitems : parseItems (argList args.text)
      (TraceGlobals.uninitializedParams environment) appPid with
  | mk parsed nextPid =>
      cases parsed with
      | none => simp
      | some parsed =>
          have hlist (kind : TagKind) := hlists kind parsed (by rw [hitems])
          simp only [← hlist, Option.isSome_some, true_and]
          by_cases hchecks : (checkTags environment parsed.tags &&
              checkTagGroup environment parsed.tagGroups) = true
          · rw [if_pos hchecks]
            constructor
            · rintro ⟨_, hsome, hnames⟩
              cases hsome
              exact ⟨checks_iff.mp hchecks, hnames⟩
            · rintro ⟨_, hnames⟩
              exact ⟨parsed, rfl, hnames⟩
          · rw [if_neg hchecks]
            refine iff_of_false ?_ fun hknown => hchecks (checks_iff.mpr hknown.1)
            rintro ⟨_, hsome, _⟩
            cases hsome

/-! The two loops on the text of a list. -/

theorem spaces_solid (count : Nat) {char : Char} (hchar : char ≠ ' ') :
    char ∉ spaces count :=
  fun hmem => hchar (List.eq_of_mem_replicate hmem)

section Squeezed

variable {mark : Char} {budget : Nat}

theorem item_last {item : ArgItem} (hitem : item.WellFormed environment) :
    ∃ last, item.text.getLast? = some last ∧ last ≠ ':' ∧ last ≠ ',' := by
  obtain ⟨last, hlast, hends⟩ := hitem.ends
  refine ⟨last, ?_, hends⟩
  rw [ArgItem.text, List.getLast?_append, List.getLast?_cons, hlast]
  rfl

theorem item_solid {item : ArgItem} (hitem : item.WellFormed environment) :
    ' ' ∉ item.text := by
  rw [ArgItem.text, List.mem_append, List.mem_cons]
  rintro (hname | hcolon | hvalue)
  · exact (text_solid item.name).1 hname
  · exact absurd hcolon (by decide)
  · exact hitem.solid hvalue

theorem squeeze_item {item : ArgItem} {after : Bool} (hitem : item.WellFormed environment)
    (hmark : mark = ':' ∨ mark = ',') (rest : List Char) :
    squeeze mark ' ' after budget (item.text ++ rest) =
      item.text ++ squeeze mark ' ' false budget rest := by
  obtain ⟨last, hlast, hcolon, hcomma⟩ := item_last hitem
  have hother : ¬ last = mark := by
    rcases hmark with rfl | rfl
    · exact hcolon
    · exact hcomma
  rw [squeeze_solid (item_solid hitem) hlast, decide_eq_false hother]

theorem squeeze_beforeText {before : List (ArgItem × Nat)}
    (hbefore : ∀ item ∈ before, item.1.WellFormed environment)
    (hmark : mark = ':' ∨ mark = ',') (rest : List Char) :
    squeeze mark ' ' false budget (beforeText before ++ rest) =
      beforeText before ++ squeeze mark ' ' false budget rest := by
  induction before with
  | nil => rfl
  | cons item before ih =>
      have htail := ih fun other hother => hbefore other (List.mem_cons_of_mem item hother)
      have hitem := hbefore item List.mem_cons_self
      simp only [beforeText, List.flatMap_cons, List.append_assoc] at htail ⊢
      rw [squeeze_item hitem hmark, spaces, squeeze_replicate, htail]

theorem squeeze_afterText {after : List (Nat × ArgItem)}
    (hafter : ∀ item ∈ after, item.2.WellFormed environment)
    (hmark : mark = ':' ∨ mark = ',') :
    squeeze mark ' ' false budget (afterText after) = afterText after := by
  induction after with
  | nil => rfl
  | cons item after ih =>
      have htail := ih fun other hother => hafter other (List.mem_cons_of_mem item hother)
      have hitem := hafter item List.mem_cons_self
      simp only [afterText, List.flatMap_cons, List.append_assoc] at htail ⊢
      rw [spaces, squeeze_replicate, squeeze_item hitem hmark, htail]

/-- The text of a list without its spaces. -/
def plainRest (rest : List (Nat × List Char)) : List Char :=
  rest.flatMap fun gap => ',' :: gap.2

variable {rest : List (Nat × List Char)} {tail : List Char}

theorem restText_cons (gap : Nat × List Char) (rest : List (Nat × List Char)) :
    SpacedNames.restText (gap :: rest) =
      ',' :: (spaces gap.1 ++ (gap.2 ++ SpacedNames.restText rest)) := by
  simp [SpacedNames.restText]

theorem plainRest_cons (gap : Nat × List Char) (rest : List (Nat × List Char)) :
    plainRest (gap :: rest) = ',' :: (gap.2 ++ plainRest rest) := by
  simp [plainRest]

/-- A name behind its spaces, and what follows. -/
theorem squeeze_name {name : List Char} (hname : ' ' ∉ name ∧ ',' ∉ name)
    {text : List Char} (htext : name = [] → text.head? ≠ some ' ') :
    squeeze ',' ' ' true budget (name ++ text) =
      name ++ squeeze ',' ' ' false budget text := by
  cases name with
  | nil => exact squeeze_after (htext rfl)
  | cons head others =>
      have hhead : head ≠ ' ' := fun heq => hname.1 (heq ▸ List.mem_cons_self)
      rw [squeeze_after (by simpa using hhead), squeeze_free hname.2]

/-- There are rounds for all the spaces. -/
theorem squeeze_restText_le (hword : ∀ gap ∈ rest, ' ' ∉ gap.2 ∧ ',' ∉ gap.2)
    (hbudget : (rest.map Prod.fst).sum ≤ budget)
    (hends : (rest.map Prod.snd).getLast? = some [] → tail.head? ≠ some ' ') :
    ∃ left, squeeze ',' ' ' false budget (SpacedNames.restText rest ++ tail) =
      plainRest rest ++ squeeze ',' ' ' false left tail := by
  induction rest generalizing budget with
  | nil => exact ⟨budget, rfl⟩
  | cons gap rest ih =>
      have hhead := hword gap List.mem_cons_self
      rw [List.map_cons, List.sum_cons] at hbudget
      obtain ⟨left, hleft⟩ := @ih (budget - gap.1)
        (fun other hother => hword other (List.mem_cons_of_mem gap hother)) (by omega) (by
          intro hlast
          apply hends
          rw [List.map_cons, List.getLast?_cons, hlast]
          rfl)
      refine ⟨left, ?_⟩
      rw [restText_cons, plainRest_cons, List.cons_append, List.cons_append,
        squeeze_cons (by decide), decide_eq_true rfl, List.append_assoc, spaces,
        squeeze_replicate_le (by omega), List.append_assoc, List.append_assoc,
        squeeze_name hhead, hleft]
      intro hempty
      cases rest with
      | nil =>
          apply hends
          rw [List.map_singleton, hempty]
          rfl
      | cons second rest =>
          rw [restText_cons]
          exact fun hblank => absurd hblank (by simp)

/-- The rounds end in front of a space that stands behind a comma. -/
theorem squeeze_restText_gt (hword : ∀ gap ∈ rest, ' ' ∉ gap.2 ∧ ',' ∉ gap.2)
    (hbudget : budget < (rest.map Prod.fst).sum) :
    ∃ front gap more, rest = front ++ gap :: more ∧ ∃ count,
      squeeze ',' ' ' false budget (SpacedNames.restText rest) =
        plainRest front ++ ',' :: ' ' :: (spaces count ++
          (gap.2 ++ SpacedNames.restText more)) := by
  induction rest generalizing budget with
  | nil => exact absurd hbudget (Nat.not_lt_zero budget)
  | cons gap rest ih =>
      have hhead := hword gap List.mem_cons_self
      rw [List.map_cons, List.sum_cons] at hbudget
      rw [restText_cons, squeeze_cons (by decide), decide_eq_true rfl]
      rcases Nat.lt_or_ge budget gap.1 with hover | hwithin
      · refine ⟨[], gap, rest, rfl, gap.1 - budget - 1, ?_⟩
        rw [spaces, squeeze_replicate_gt hover]
        obtain ⟨count, hcount⟩ := Nat.exists_eq_add_of_lt hover
        have hmore : gap.1 - budget = gap.1 - budget - 1 + 1 := by omega
        rw [hmore, List.replicate_succ]
        simp [plainRest, spaces]
      · obtain ⟨front, next, more, hrest, count, hsqueezed⟩ := @ih (budget - gap.1)
          (fun other hother => hword other (List.mem_cons_of_mem gap hother)) (by omega)
        refine ⟨gap :: front, next, more, by rw [hrest, List.cons_append], count, ?_⟩
        rw [spaces, squeeze_replicate_le hwithin, squeeze_name hhead, hsqueezed,
          plainRest_cons]
        · simp only [List.cons_append, List.append_assoc]
        · intro _
          rw [hrest]
          cases front with
          | nil =>
              rw [List.nil_append, restText_cons]
              exact fun hblank => absurd hblank (by simp)
          | cons second front =>
              rw [List.cons_append, restText_cons]
              exact fun hblank => absurd hblank (by simp)

end Squeezed

/-! The items beside the list. -/

/-- The item is accepted, is no list of the kind, and any other list in it is known. -/
structure Harmless (environment : OpenEnvironment) (kind : TagKind) (item : List Char) :
    Prop where
  accepted : itemAccepted item = true
  silent : itemNames kind item = none
  known : ∀ other names, itemNames other item = some names →
    ∀ name ∈ names, other.known environment name = true

theorem harmless_free (kind : TagKind) {item : List Char} (hitem : ':' ∉ item) :
    Harmless environment kind item where
  accepted := itemAccepted_free hitem
  silent := itemNames_free kind hitem
  known := by
    intro other names hnames
    rw [itemNames_free other hitem] at hnames
    cases hnames

theorem harmless_item {kind : TagKind} {item : ArgItem}
    (hitem : item.WellFormed environment) (hkind : item.name ≠ kind.argName) :
    Harmless environment kind item.text where
  accepted := itemAccepted_text hitem.appPid
  silent := by
    rw [ArgItem.text, itemNames_text, namesWritten, if_neg hkind]
  known := by
    intro other names hnames
    rw [ArgItem.text, itemNames_text, namesWritten, Option.ite_none_right_eq_some] at hnames
    obtain ⟨hother, hsplit⟩ := hnames
    cases hsplit
    exact hitem.known other hother

theorem harmless_split {kind : TagKind} {text : List Char} (htext : ':' ∉ text) :
    ∀ item ∈ split text ' ', Harmless environment kind item :=
  fun _ hitem => harmless_free kind fun hcolon => htext (mem_of_mem_split hitem hcolon)

theorem harmless_replicate {kind : TagKind} {items : List (List Char)}
    (hitems : ∀ item ∈ items, Harmless environment kind item) (count : Nat) :
    ∀ item ∈ List.replicate count [] ++ items, Harmless environment kind item := by
  intro item hmem
  rcases List.mem_append.mp hmem with hempty | hitem
  · rw [List.eq_of_mem_replicate hempty]
    exact harmless_free kind List.not_mem_nil
  · exact hitems item hitem

/-- A word and the rest behind its separator. -/
theorem split_word {word text : List Char} (hword : ' ' ∉ word) (hnonempty : word ≠ [])
    (htext : ∀ head ∈ text.head?, head = ' ') :
    split (word ++ text) ' ' = word :: split text.tail ' ' := by
  cases text with
  | nil => rw [List.append_nil, split_solid hword hnonempty, List.tail_nil, split_nil]
  | cons head tail =>
      rw [htext head rfl, split_delimiter hword, List.tail_cons]

theorem afterText_head (after : List (Nat × ArgItem)) :
    ∀ head ∈ (afterText after).head?, head = ' ' := by
  intro head hhead
  cases after with
  | nil => cases hhead
  | cons item after =>
      cases hhead
      rfl

theorem item_ne_nil (item : ArgItem) : item.text ≠ [] :=
  List.append_ne_nil_of_right_ne_nil _ (List.cons_ne_nil _ _)

theorem afterText_tail (item : Nat × ArgItem) (after : List (Nat × ArgItem)) :
    (afterText (item :: after)).tail = spaces item.1 ++ (item.2.text ++ afterText after) := by
  simp [afterText, spaces, List.replicate_succ]

section Beside

variable {kind : TagKind}

theorem harmless_after {after : List (Nat × ArgItem)}
    (hafter : ∀ item ∈ after, item.2.WellFormed environment ∧ item.2.name ≠ kind.argName) :
    ∀ item ∈ split (afterText after).tail ' ', Harmless environment kind item := by
  induction after with
  | nil =>
      intro item hitem
      cases hitem
  | cons first after ih =>
      have htail := ih fun other hother => hafter other (List.mem_cons_of_mem first hother)
      obtain ⟨hfirst, hkind⟩ := hafter first List.mem_cons_self
      rw [afterText_tail, spaces, split_replicate,
        split_word (item_solid hfirst) (item_ne_nil first.2) (afterText_head after)]
      apply harmless_replicate
      intro item hitem
      rcases List.mem_cons.mp hitem with rfl | hmem
      · exact harmless_item hfirst hkind
      · exact htail item hmem

def beforeItems (before : List (ArgItem × Nat)) : List (List Char) :=
  before.flatMap fun item => item.1.text :: List.replicate item.2 []

theorem split_beforeText {before : List (ArgItem × Nat)}
    (hbefore : ∀ item ∈ before, item.1.WellFormed environment) (rest : List Char) :
    split (beforeText before ++ rest) ' ' = beforeItems before ++ split rest ' ' := by
  induction before with
  | nil => rfl
  | cons item before ih =>
      have htail := ih fun other hother => hbefore other (List.mem_cons_of_mem item hother)
      have hitem := hbefore item List.mem_cons_self
      simp only [beforeText, beforeItems, List.flatMap_cons, List.append_assoc,
        List.cons_append] at htail ⊢
      rw [spaces, List.replicate_succ, List.cons_append, split_delimiter (item_solid hitem),
        split_replicate, htail]

theorem harmless_before {before : List (ArgItem × Nat)}
    (hbefore : ∀ item ∈ before, item.1.WellFormed environment ∧ item.1.name ≠ kind.argName) :
    ∀ item ∈ beforeItems before, Harmless environment kind item := by
  intro item hitem
  obtain ⟨source, hsource, hmem⟩ := List.mem_flatMap.mp hitem
  obtain ⟨hwell, hkind⟩ := hbefore source hsource
  rcases List.mem_cons.mp hmem with rfl | hempty
  · exact harmless_item hwell hkind
  · rw [List.eq_of_mem_replicate hempty]
    exact harmless_free kind List.not_mem_nil

end Beside

/-! One list item among harmless ones. -/

section OneList

variable {kind : TagKind} {left right : List (List Char)} {value : List Char}

theorem argName_ne {kind other : TagKind} (hother : other ≠ kind) :
    kind.argName ≠ other.argName := by
  cases kind <;> cases other <;> first | exact absurd rfl hother | decide

theorem filterMap_harmless {items : List (List Char)}
    (hitems : ∀ item ∈ items, Harmless environment kind item) :
    items.filterMap (itemNames kind) = [] :=
  List.filterMap_eq_nil_iff.mpr fun item hitem => (hitems item hitem).silent

theorem lists_list (hleft : ∀ item ∈ left, Harmless environment kind item)
    (hright : ∀ item ∈ right, Harmless environment kind item) :
    lists kind (left ++ (kind.argName.text ++ ':' :: value) :: right) = split value ',' := by
  have hwritten : itemNames kind (kind.argName.text ++ ':' :: value) =
      some (split value ',') := by
    rw [itemNames_text, namesWritten, if_pos rfl]
  rw [lists, List.filterMap_append, filterMap_harmless hleft,
    List.filterMap_cons_some hwritten, filterMap_harmless hright]
  rfl

theorem lists_other {other : TagKind} (hother : other ≠ kind)
    (hleft : ∀ item ∈ left, Harmless environment kind item)
    (hright : ∀ item ∈ right, Harmless environment kind item) :
    ∀ name ∈ lists other (left ++ (kind.argName.text ++ ':' :: value) :: right),
      other.known environment name = true := by
  intro name hname
  rw [lists] at hname
  cases hlast : ((left ++ (kind.argName.text ++ ':' :: value) :: right).filterMap
      (itemNames other)).getLast? with
  | none =>
      rw [hlast] at hname
      cases hname
  | some names =>
      rw [hlast] at hname
      obtain ⟨item, hitem, hnames⟩ := List.mem_filterMap.mp (List.mem_of_getLast? hlast)
      rcases List.mem_append.mp hitem with hmem | hmem
      · exact (hleft item hmem).known other names hnames name hname
      · rcases List.mem_cons.mp hmem with rfl | hmem
        · rw [itemNames_text, namesWritten, if_neg (argName_ne hother)] at hnames
          cases hnames
        · exact (hright item hmem).known other names hnames name hname

theorem parsed_iff_value {args : TagArgs} {appPid : List Char}
    (hknown : ∀ name ∈ args.spaced.list, args.kind.known environment name = true)
    (hitems : argList args.text =
      left ++ (args.kind.argName.text ++ ':' :: value) :: right)
    (hleft : ∀ item ∈ left, Harmless environment args.kind item)
    (hright : ∀ item ∈ right, Harmless environment args.kind item) :
    args.Parsed environment appPid ↔ split value ',' = args.spaced.list := by
  rw [parsed_iff, hitems, lists_list hleft hright]
  refine ⟨fun hparsed => hparsed.2.2, fun hvalue => ⟨?_, ?_, hvalue⟩⟩
  · intro item hitem
    rcases List.mem_append.mp hitem with hmem | hmem
    · exact (hleft item hmem).accepted
    · rcases List.mem_cons.mp hmem with rfl | hmem
      · apply itemAccepted_text
        intro happPid
        cases hkind : args.kind <;> rw [hkind] at happPid <;> cases happPid
      · exact (hright item hmem).accepted
  · intro other name hname
    by_cases hother : other = args.kind
    · subst hother
      rw [lists_list hleft hright, hvalue] at hname
      exact hknown name hname
    · exact lists_other hother hleft hright name hname

end OneList

/-! The text behind the colon of the list. -/

section Passes

/-- Both loops, behind the list's colon. -/
def passes (text : List Char) : List Char :=
  squeeze ',' ' ' false 30 (squeeze ':' ' ' true 30 text)

theorem squeeze_argName {mark : Char} {budget : Nat} (name : ArgName) (text : List Char) :
    squeeze mark ' ' false budget (name.text ++ ':' :: text) =
      name.text ++ ':' :: squeeze mark ' ' (decide (':' = mark)) budget text := by
  have hsolid : ' ' ∉ name.text ++ [':'] := by
    rw [List.mem_append, List.mem_singleton]
    rintro (hname | hcolon)
    · exact (text_solid name).1 hname
    · exact absurd hcolon (by decide)
  have hlast : (name.text ++ [':']).getLast? = some ':' := List.getLast?_concat
  have hsqueezed := @squeeze_solid _ _ mark ' ' false budget _ _ hsolid hlast text
  simpa using hsqueezed

theorem argList_text {args : TagArgs}
    (hbefore : ∀ item ∈ args.before, item.1.WellFormed environment) :
    argList args.text = beforeItems args.before ++
      split (args.kind.argName.text ++ ':' ::
        passes (spaces args.colonSpaces ++ (args.spaced.text ++ afterText args.after))) ' ' := by
  have hcolon : decide (':' = ':') = true := rfl
  have hcomma : decide (':' = ',') = false := rfl
  rw [argList, removeUnSpace, removeUnSpace, removeUnSpaceRounds_eq (by decide),
    removeUnSpaceRounds_eq (by decide), text, listText, List.append_assoc, List.cons_append,
    List.append_assoc, squeeze_beforeText hbefore (.inl rfl), squeeze_argName, hcolon,
    squeeze_beforeText hbefore (.inr rfl), squeeze_argName, hcomma,
    split_beforeText hbefore, passes]

variable {args : TagArgs} {appPid value rest : List Char}

/-- The list that is read, from what the loops leave of the text behind its colon. -/
theorem parsed_iff_passes (hargs : args.WellFormed environment)
    (hpasses : passes (spaces args.colonSpaces ++
      (args.spaced.text ++ afterText args.after)) = value ++ rest)
    (hvalue : ' ' ∉ value) (hrest : ∀ head ∈ rest.head?, head = ' ')
    (hright : ∀ item ∈ split rest.tail ' ', Harmless environment args.kind item) :
    args.Parsed environment appPid ↔ split value ',' = args.spaced.list := by
  have hsolid : ' ' ∉ args.kind.argName.text ++ ':' :: value := by
    rw [List.mem_append, List.mem_cons]
    rintro (hname | hcolon | hmem)
    · exact (text_solid args.kind.argName).1 hname
    · exact absurd hcolon (by decide)
    · exact hvalue hmem
  have hnonempty : args.kind.argName.text ++ ':' :: value ≠ [] :=
    List.append_ne_nil_of_right_ne_nil _ (List.cons_ne_nil _ _)
  refine parsed_iff_value hargs.known ?_ (harmless_before hargs.before) hright
  rw [argList_text fun item hitem => (hargs.before item hitem).1, hpasses, ← List.cons_append,
    ← List.append_assoc, split_word hsolid hnonempty hrest]

theorem passes_none (count : Nat) (text : List Char) (hcount : 30 < count) :
    passes (spaces count ++ text) =
      spaces (count - 30) ++ squeeze ',' ' ' false 30 text := by
  rw [passes, spaces, squeeze_replicate_gt hcount, squeeze_replicate, spaces]

theorem passes_item {count : Nat} {item : ArgItem} {after : List (Nat × ArgItem)}
    (hcount : count ≤ 30) (hitem : item.WellFormed environment)
    (hafter : ∀ item ∈ after, item.2.WellFormed environment) :
    passes (spaces count ++ (item.text ++ afterText after)) = item.text ++ afterText after := by
  rw [passes, spaces, squeeze_replicate_le hcount, squeeze_item hitem (.inl rfl),
    squeeze_afterText hafter (.inl rfl), squeeze_item hitem (.inr rfl),
    squeeze_afterText hafter (.inr rfl)]

section Names

variable {first : List Char} {others : List (Nat × List Char)} {count : Nat}

theorem text_free {mark : Char} (hmark : mark ≠ ' ') (hcomma : mark ≠ ',')
    (hword : ∀ name ∈ (SpacedNames.names first others).list, mark ∉ name) :
    mark ∉ (SpacedNames.names first others).text := by
  rw [SpacedNames.text, SpacedNames.restText, List.mem_append, List.mem_flatMap]
  rintro (hfirst | ⟨gap, hgap, hmem⟩)
  · exact hword first List.mem_cons_self hfirst
  · rw [List.mem_cons, List.mem_append] at hmem
    rcases hmem with rfl | hspaces | hname
    · exact hcomma rfl
    · exact spaces_solid gap.1 hmark hspaces
    · exact hword gap.2 (List.mem_cons_of_mem _ (List.mem_map_of_mem hgap)) hname

theorem text_head {tail : List Char} (hfirst : ' ' ∉ first)
    (hends : (SpacedNames.names first others).list.getLast? = some [] →
      tail.head? ≠ some ' ') :
    ((SpacedNames.names first others).text ++ tail).head? ≠ some ' ' := by
  rw [SpacedNames.text]
  cases first with
  | cons head first =>
      intro hhead
      cases hhead
      exact hfirst List.mem_cons_self
  | nil =>
      cases others with
      | nil => exact hends rfl
      | cons gap others =>
          rw [restText_cons]
          exact fun hhead => absurd hhead (by simp)

/-- The colon's spaces are gone. -/
theorem squeeze_colon {tail : List Char} (hcount : count ≤ 30)
    (hword : ∀ name ∈ (SpacedNames.names first others).list, ' ' ∉ name ∧ ',' ∉ name ∧ ':' ∉ name)
    (hends : (SpacedNames.names first others).list.getLast? = some [] →
      tail.head? ≠ some ' ')
    (htail : ∀ budget, squeeze ':' ' ' false budget tail = tail) :
    squeeze ':' ' ' true 30
        (spaces count ++ ((SpacedNames.names first others).text ++ tail)) =
      (SpacedNames.names first others).text ++ tail := by
  have hfree := @text_free first others ':' (by decide) (by decide)
    fun name hname => (hword name hname).2.2
  rw [spaces, squeeze_replicate_le hcount,
    squeeze_after (text_head (hword first List.mem_cons_self).1 hends), squeeze_free hfree,
    htail]

theorem plain_free {mark : Char} (hcomma : mark ≠ ',')
    (hword : ∀ name ∈ (SpacedNames.names first others).list, mark ∉ name) :
    mark ∉ first ++ plainRest others := by
  rw [plainRest, List.mem_append, List.mem_flatMap]
  rintro (hfirst | ⟨gap, hgap, hmem⟩)
  · exact hword first List.mem_cons_self hfirst
  · rcases List.mem_cons.mp hmem with rfl | hname
    · exact hcomma rfl
    · exact hword gap.2 (List.mem_cons_of_mem _ (List.mem_map_of_mem hgap)) hname

/-- A last name that is empty is lost. -/
theorem split_plain (hword : ∀ name ∈ (SpacedNames.names first others).list, ',' ∉ name) :
    split (first ++ plainRest others) ',' =
      if (SpacedNames.names first others).list.getLast? = some [] then
        (SpacedNames.names first others).list.dropLast
      else (SpacedNames.names first others).list := by
  induction others generalizing first with
  | nil =>
      have hfirst := hword first List.mem_cons_self
      by_cases hempty : first = []
      · rw [hempty]
        rfl
      · have hlast : ¬ (SpacedNames.names first []).list.getLast? = some [] := by
          intro hsome
          exact hempty (Option.some.inj hsome)
        rw [if_neg hlast, plainRest, List.flatMap_nil, List.append_nil,
          split_solid hfirst hempty]
        rfl
  | cons gap others ih =>
      have hrest := @ih gap.2 fun name hname => hword name (List.mem_cons_of_mem first hname)
      have hlast : (SpacedNames.names first (gap :: others)).list.getLast? =
          (SpacedNames.names gap.2 others).list.getLast? := List.getLast?_cons_cons
      rw [plainRest_cons, split_delimiter (hword first List.mem_cons_self), hrest, hlast]
      split
      · rfl
      · rfl

theorem split_plain_ne (hword : ∀ name ∈ (SpacedNames.names first others).list, ',' ∉ name)
    (hlast : (SpacedNames.names first others).list.getLast? = some []) :
    split (first ++ plainRest others) ',' ≠ (SpacedNames.names first others).list := by
  rw [split_plain hword, if_pos hlast]
  intro heq
  have hlength := congrArg List.length heq
  rw [List.length_dropLast, SpacedNames.list, List.length_cons] at hlength
  omega

end Names

variable {first : List Char} {others : List (Nat × List Char)}

/-- There are rounds enough: only the names count. -/
theorem parsed_iff_within (hargs : args.WellFormed environment)
    (hnames : args.spaced = .names first others) (hcolon : args.colonSpaces ≤ 30)
    (hgaps : args.spaced.gaps ≤ 30)
    (hends : args.spaced.list.getLast? = some [] → args.after = []) :
    args.Parsed environment appPid ↔ args.spaced.list.getLast? ≠ some [] := by
  have hword := hargs.word
  have htail : (SpacedNames.names first others).list.getLast? = some [] →
      (afterText args.after).head? ≠ some ' ' := by
    intro hlast
    rw [hends (hnames ▸ hlast)]
    exact fun hhead => absurd hhead (by simp [afterText])
  rw [hnames] at hword hgaps
  have hfirst := hword first List.mem_cons_self
  have hothers (gap : Nat × List Char) (hgap : gap ∈ others) := hword gap.2
    (List.mem_cons_of_mem first (List.mem_map_of_mem hgap))
  obtain ⟨left, hleft⟩ := @squeeze_restText_le 30 others (afterText args.after)
    (fun gap hgap => ⟨(hothers gap hgap).1, (hothers gap hgap).2.1⟩) hgaps (by
      intro hlast
      apply htail
      rw [SpacedNames.list, List.getLast?_cons, hlast]
      rfl)
  have hafter (item : Nat × ArgItem) (hitem : item ∈ args.after) :=
    (hargs.after item hitem).1
  have hpasses : passes (spaces args.colonSpaces ++
      (args.spaced.text ++ afterText args.after)) =
        first ++ plainRest others ++ afterText args.after := by
    rw [passes, hnames, squeeze_colon hcolon hword htail
      fun budget => squeeze_afterText hafter (.inl rfl), SpacedNames.text, List.append_assoc,
      squeeze_free hfirst.2.1, hleft, squeeze_afterText hafter (.inr rfl), List.append_assoc]
  rw [parsed_iff_passes hargs hpasses
    (plain_free (by decide) fun name hname => (hword name hname).1) (afterText_head _)
    (harmless_after hargs.after), hnames]
  have hcomma (name : List Char) (hname : name ∈ (SpacedNames.names first others).list) :=
    (hword name hname).2.1
  constructor
  · intro hsplit hlast
    exact split_plain_ne hcomma hlast hsplit
  · intro hlast
    rw [split_plain hcomma, if_neg hlast]

/-- The loop on the colon leaves spaces, and the list is empty. -/
theorem not_parsed_of_colonSpaces (hargs : args.WellFormed environment)
    (hnames : args.spaced = .names first others) (hafter : args.after = [])
    (hcolon : 30 < args.colonSpaces) : ¬ args.Parsed environment appPid := by
  have hword := hargs.word
  rw [hnames] at hword
  have hfree := @text_free first others ':' (by decide) (by decide)
    fun name hname => (hword name hname).2.2
  have hpasses : passes (spaces args.colonSpaces ++
      (args.spaced.text ++ afterText args.after)) =
        [] ++ (spaces (args.colonSpaces - 30) ++ squeeze ',' ' ' false 30
          (SpacedNames.names first others).text) := by
    rw [passes_none _ _ hcolon, hnames, hafter, afterText, List.flatMap_nil, List.append_nil,
      List.nil_append]
  have hspaces : spaces (args.colonSpaces - 30) = ' ' :: spaces (args.colonSpaces - 31) := by
    rw [spaces, spaces, ← List.replicate_succ]
    congr 1
    omega
  rw [parsed_iff_passes hargs hpasses List.not_mem_nil, hnames]
  · intro hsplit
    cases hsplit
  · intro head hhead
    rw [hspaces] at hhead
    cases hhead
    rfl
  · apply harmless_split
    intro hmem
    rcases List.mem_append.mp (List.mem_of_mem_tail hmem) with hblank | htext
    · exact spaces_solid _ (by decide) hblank
    · exact hfree (mem_of_mem_squeeze htext)

/-- The loop on the commas leaves a space, and the names behind it are lost. -/
theorem not_parsed_of_gaps (hargs : args.WellFormed environment)
    (hnames : args.spaced = .names first others) (hafter : args.after = [])
    (hcolon : args.colonSpaces ≤ 30) (hgaps : 30 < args.spaced.gaps) :
    ¬ args.Parsed environment appPid := by
  have hword := hargs.word
  rw [hnames] at hword hgaps
  have hfirst := hword first List.mem_cons_self
  have hothers (gap : Nat × List Char) (hgap : gap ∈ others) := hword gap.2
    (List.mem_cons_of_mem first (List.mem_map_of_mem hgap))
  obtain ⟨front, gap, more, hsplit, count, hsqueezed⟩ := @squeeze_restText_gt 30 others
    (fun gap hgap => ⟨(hothers gap hgap).1, (hothers gap hgap).2.1⟩) hgaps
  have hplain : plainRest (front ++ [(0, [])]) = plainRest front ++ [','] := by
    simp [plainRest]
  have hcut : ∀ name ∈ (SpacedNames.names first (front ++ [(0, [])])).list,
      ' ' ∉ name ∧ ',' ∉ name := by
    intro name hname
    rw [SpacedNames.list, List.map_append, List.mem_cons, List.mem_append] at hname
    rcases hname with rfl | hfront | hempty
    · exact ⟨hfirst.1, hfirst.2.1⟩
    · obtain ⟨kept, hkept, rfl⟩ := List.mem_map.mp hfront
      have hmem : kept ∈ others := hsplit ▸ List.mem_append_left _ hkept
      exact ⟨(hothers kept hmem).1, (hothers kept hmem).2.1⟩
    · rw [List.mem_singleton.mp hempty]
      exact ⟨List.not_mem_nil, List.not_mem_nil⟩
  have hpasses : passes (spaces args.colonSpaces ++
      (args.spaced.text ++ afterText args.after)) =
        first ++ plainRest (front ++ [(0, [])]) ++
          ' ' :: (spaces count ++ (gap.2 ++ SpacedNames.restText more)) := by
    rw [passes, hnames, hafter, squeeze_colon hcolon hword (by simp [afterText])
      (by simp [afterText]), afterText, List.flatMap_nil, List.append_nil, SpacedNames.text,
      squeeze_free hfirst.2.1, hsqueezed, hplain]
    simp only [List.append_assoc, List.cons_append, List.nil_append]
  have hlist : (SpacedNames.names first (front ++ [(0, [])])).list.getLast? = some [] := by
    rw [SpacedNames.list, List.map_append, ← List.cons_append]
    exact List.getLast?_concat
  rw [parsed_iff_passes hargs hpasses (plain_free (by decide) fun name hname =>
      (hcut name hname).1), split_plain fun name hname => (hcut name hname).2, if_pos hlist,
    hnames]
  · intro heq
    have hlength := congrArg List.length heq
    simp only [SpacedNames.list, List.length_dropLast, List.length_cons, List.length_map,
      List.length_append, List.length_nil, hsplit] at hlength
    omega
  · intro head hhead
    cases hhead
    rfl
  · apply harmless_split
    rw [List.tail_cons, List.mem_append, List.mem_append]
    have hgapMem : gap ∈ others := hsplit ▸ List.mem_append_right _ List.mem_cons_self
    rintro (hblank | hname | hmore)
    · exact spaces_solid _ (by decide) hblank
    · exact (hothers gap hgapMem).2.2 hname
    · obtain ⟨other, hother, hmem⟩ := List.mem_flatMap.mp hmore
      have hotherMem : other ∈ others :=
        hsplit ▸ List.mem_append_right _ (List.mem_cons_of_mem gap hother)
      rw [List.mem_cons, List.mem_append] at hmem
      rcases hmem with hcomma | hblank | hname
      · exact absurd hcomma (by decide)
      · exact spaces_solid _ (by decide) hblank
      · exact (hothers other hotherMem).2.2 hname

/-- A list without names is read, unless the colon takes the next item. -/
theorem parsed_none_iff (hargs : args.WellFormed environment) (hnames : args.spaced = .none) :
    args.Parsed environment appPid ↔ args.Kept := by
  rw [Kept, hnames]
  cases hafter : args.after with
  | nil =>
      have hpasses : passes (spaces args.colonSpaces ++
          (args.spaced.text ++ afterText args.after)) =
            [] ++ spaces (args.colonSpaces - 30) := by
        rw [hnames, hafter]
        simp only [SpacedNames.text, afterText, List.flatMap_nil, List.append_nil,
          List.nil_append]
        rcases Nat.lt_or_ge 30 args.colonSpaces with hover | hwithin
        · have hpast := passes_none args.colonSpaces [] hover
          rwa [List.append_nil, squeeze_nil, List.append_nil] at hpast
        · have hall := @squeeze_replicate_le _ _ ':' ' ' 30 _ hwithin []
          rw [List.append_nil] at hall
          rw [passes, spaces, hall, squeeze_nil, squeeze_nil, Nat.sub_eq_zero_of_le hwithin,
            spaces, List.replicate_zero]
      rw [parsed_iff_passes hargs hpasses List.not_mem_nil, hnames]
      · exact iff_of_true rfl trivial
      · intro head hhead
        exact List.eq_of_mem_replicate (List.mem_of_mem_head? hhead)
      · apply harmless_split
        intro hmem
        exact spaces_solid _ (by decide) (List.mem_of_mem_tail hmem)
  | cons item after =>
      have hall : ∀ other ∈ item :: after,
          other.2.WellFormed environment ∧ other.2.name ≠ args.kind.argName :=
        hafter ▸ hargs.after
      obtain ⟨hitem, hkind⟩ := hall item List.mem_cons_self
      have hrest (other : Nat × ArgItem) (hother : other ∈ after) :=
        hall other (List.mem_cons_of_mem item hother)
      have htext : spaces args.colonSpaces ++ (args.spaced.text ++ afterText args.after) =
          spaces (args.colonSpaces + (item.1 + 1)) ++ (item.2.text ++ afterText after) := by
        have hspaces : spaces (args.colonSpaces + (item.1 + 1)) =
            spaces args.colonSpaces ++ spaces (item.1 + 1) :=
          List.replicate_add _ _ _
        rw [hnames, hafter, hspaces]
        simp only [SpacedNames.text, afterText, List.flatMap_cons, List.nil_append,
          List.append_assoc]
      rcases Nat.lt_or_ge 30 (args.colonSpaces + (item.1 + 1)) with hover | hwithin
      · refine iff_of_true ?_ hover
        have hpasses : passes (spaces args.colonSpaces ++
            (args.spaced.text ++ afterText args.after)) =
              [] ++ afterText ((args.colonSpaces + (item.1 + 1) - 31, item.2) :: after) := by
          rw [htext, passes_none _ _ hover, squeeze_item hitem (.inr rfl),
            squeeze_afterText (fun other hother => (hrest other hother).1) (.inr rfl),
            afterText, afterText, List.flatMap_cons, List.nil_append, List.append_assoc]
          congr 2
          omega
        rw [parsed_iff_passes hargs hpasses List.not_mem_nil (afterText_head _), hnames]
        · rfl
        · apply harmless_after
          intro other hother
          rcases List.mem_cons.mp hother with rfl | hmem
          · exact ⟨hitem, hkind⟩
          · exact hrest other hmem
      · refine iff_of_false ?_ (Nat.not_lt.mpr hwithin)
        have hpasses := passes_item hwithin hitem fun other hother => (hrest other hother).1
        rw [← htext] at hpasses
        rw [parsed_iff_passes hargs hpasses (item_solid hitem) (afterText_head _)
          (harmless_after hrest), hnames]
        exact split_ne_nil (item_ne_nil item.2)

theorem alone_wellFormed (hargs : args.WellFormed environment) :
    args.alone.WellFormed environment where
  known := hargs.known
  word := hargs.word
  before := by
    intro item hitem
    cases hitem
  after := by
    intro item hitem
    cases hitem

/-- `ParseArgs` reads a list of known names, by itself and among other well-formed items,
if and only if no round is missing for the spaces behind its colon and its commas and it
does not end with a colon or comma. -/
theorem parse_args_list_iff (hargs : args.WellFormed environment) (appPid : List Char) :
    (args.alone.Parsed environment appPid ∧ args.Parsed environment appPid) ↔ args.Kept := by
  have halone := alone_wellFormed hargs
  cases hnames : args.spaced with
  | none =>
      rw [parsed_none_iff hargs hnames, and_iff_right_iff_imp]
      intro _
      rw [parsed_none_iff halone hnames, Kept]
      have hspaced : args.alone.spaced = .none := hnames
      rw [hspaced]
      trivial
  | names first others =>
      have hkept : args.Kept ↔ args.colonSpaces ≤ 30 ∧ args.spaced.gaps ≤ 30 ∧
          args.spaced.list.getLast? ≠ some [] := by
        rw [Kept, hnames]
      rw [hkept]
      by_cases hcolon : args.colonSpaces ≤ 30
      · by_cases hgaps : args.spaced.gaps ≤ 30
        · rw [parsed_iff_within halone hnames hcolon hgaps fun _ => rfl]
          constructor
          · rintro ⟨hlast, _⟩
            exact ⟨hcolon, hgaps, hlast⟩
          · rintro ⟨_, _, hlast⟩
            refine ⟨hlast, ?_⟩
            rw [parsed_iff_within hargs hnames hcolon hgaps fun hempty => absurd hempty hlast]
            exact hlast
        · refine iff_of_false ?_ fun hall => hgaps hall.2.1
          intro hboth
          exact not_parsed_of_gaps halone hnames rfl hcolon (Nat.lt_of_not_le hgaps) hboth.1
      · refine iff_of_false ?_ fun hall => hcolon hall.1
        intro hboth
        exact not_parsed_of_colonSpaces halone hnames rfl (Nat.lt_of_not_le hcolon) hboth.1

def aceEnvironment : OpenEnvironment where
  allTags := [("ace".toList, ⟨1, .user⟩)]
  tagGroupTable := [("scene".toList, ["ace".toList])]

/-- `tags: ace,  ace clockType:boot` -/
def aceArgs : TagArgs where
  kind := .tags
  colonSpaces := 1
  spaced := .names "ace".toList [(2, "ace".toList)]
  after := [(0, ⟨.clockType, "boot".toList⟩)]

theorem aceArgs_wellFormed : aceArgs.WellFormed aceEnvironment where
  known := by decide
  word := by decide
  before := by
    intro item hitem
    cases hitem
  after := by
    intro item hitem
    cases List.mem_singleton.mp hitem
    refine ⟨⟨by decide, ⟨'t', by decide⟩, ?_, ?_⟩, by decide⟩
    · intro happPid
      cases happPid
    · intro kind hkind
      cases kind <;> cases hkind

theorem parse_args_list_iff_ace :
    aceArgs.alone.Parsed aceEnvironment "-1".toList ∧
      aceArgs.Parsed aceEnvironment "-1".toList :=
  (parse_args_list_iff aceArgs_wellFormed "-1".toList).mpr
    ⟨by decide, by decide, by decide⟩

/-- 31 spaces behind the comma of `tags:ace,ace`. -/
def farArgs : TagArgs where
  kind := .tags
  colonSpaces := 0
  spaced := .names "ace".toList [(31, "ace".toList)]

theorem farArgs_wellFormed : farArgs.WellFormed aceEnvironment where
  known := by decide
  word := by decide
  before := by
    intro item hitem
    cases hitem
  after := by
    intro item hitem
    cases hitem

theorem name_behind_31_spaces_is_lost :
    ¬ ∀ (environment : OpenEnvironment) (args : TagArgs), args.WellFormed environment →
      ∀ appPid, args.alone.Parsed environment appPid ∧ args.Parsed environment appPid := by
  intro hall
  exact not_parsed_of_gaps farArgs_wellFormed rfl rfl (by decide) (by decide)
    (hall _ _ farArgs_wellFormed []).2

end Passes

end TagArgs

end Hitrace
