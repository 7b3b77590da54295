import Hitrace.HitraceDump.OpenTrace
import Hitrace.Library.Squeeze
import Hitrace.Utils.WordSearch

namespace Hitrace

open Library

/-! The argument string of `OpenTrace`, from its text to the lists of tags and tag groups. -/

/-! `RemoveUnSpace` takes out one blank in a round, the first that stands behind the symbol. -/

section RemoveUnSpace

variable {symbol : Char} {budget : Nat}

theorem occurs_append {word text : List Char} {position : Nat}
    (hoccurs : Occurs word text position) (rest : List Char) :
    Occurs word (text ++ rest) position := by
  obtain ⟨front, back, rfl, rfl⟩ := occurs_iff.mp hoccurs
  exact occurs_iff.mpr ⟨front, back ++ rest, by simp only [List.append_assoc], rfl⟩

/-- A front in which no blank stands behind the symbol. -/
theorem squeeze_front {front rest : List Char} (hrest : rest.head? ≠ some ' ')
    (hfront : ∀ position < front.length,
      ¬ Occurs [symbol, ' '] (front ++ rest.take 1) position) :
    squeeze symbol ' ' false budget (front ++ rest) =
      front ++ squeeze symbol ' ' false budget rest := by
  induction front with
  | nil => rfl
  | cons head tail ih =>
      have htail := ih fun position hposition hoccurs =>
        hfront (position + 1) (Nat.succ_lt_succ hposition) (occurs_succ.mpr hoccurs)
      rw [List.cons_append]
      by_cases hblank : head = ' '
      · rw [hblank, squeeze_blank, htail, List.cons_append]
      · rw [squeeze_cons hblank, List.cons_append, ← htail]
        congr 1
        by_cases hhead : head = symbol
        · apply squeeze_after
          intro hnext
          apply hfront 0 (Nat.succ_pos _)
          rw [occurs_zero, hhead, List.cons_append, List.cons_prefix_cons]
          refine ⟨rfl, ?_⟩
          cases tail with
          | nil => exact absurd hnext hrest
          | cons second tail =>
              cases hnext
              exact List.cons_prefix_cons.mpr ⟨rfl, List.nil_prefix⟩
        · rw [decide_eq_false hhead]

theorem removeUnSpaceRounds_eq (hsymbol : symbol ≠ ' ') (rounds : Nat) (args : List Char) :
    removeUnSpaceRounds symbol rounds args = squeeze symbol ' ' false rounds args := by
  induction rounds generalizing args with
  | zero => rw [removeUnSpaceRounds, Library.squeeze_zero]
  | succ rounds ih =>
      rw [removeUnSpaceRounds]
      cases hfound : findWord [symbol, ' '] args with
      | none =>
          have hkept : squeeze symbol ' ' false (rounds + 1) (args ++ []) =
              args ++ squeeze symbol ' ' false (rounds + 1) [] := by
            apply squeeze_front
            · simp
            · intro position _ hoccurs
              rw [List.take_nil, List.append_nil] at hoccurs
              exact findWord_eq_none hfound position hoccurs
          rw [List.append_nil, squeeze_nil, List.append_nil] at hkept
          exact hkept.symm
      | some index =>
          obtain ⟨⟨_, hoccurs⟩, hleast⟩ := findWord_eq_some hfound
          obtain ⟨front, rest, rfl, rfl⟩ := occurs_iff.mp hoccurs
          have hnone (position : Nat) (hposition : position < front.length) :
              ¬ Occurs [symbol, ' '] (front ++ [symbol]) position := by
            intro hother
            have hlater := occurs_append hother (' ' :: rest)
            rw [List.append_assoc] at hlater
            have hle := hleast ⟨Nat.zero_le _, hlater⟩
            omega
          have hdrop : (front ++ ([symbol, ' '] ++ rest)).drop (front.length + 2) = rest := by
            rw [List.drop_length_add_append]
            rfl
          have hhead (rest : List Char) : (symbol :: rest).head? ≠ some ' ' := by
            simpa using hsymbol
          dsimp only
          rw [hdrop, List.take_left, ih]
          simp only [List.cons_append, List.nil_append]
          rw [squeeze_front (hhead rest) hnone, squeeze_front (hhead (' ' :: rest)) hnone,
            squeeze_mark_blank hsymbol]

end RemoveUnSpace

/-! `Split` drops an empty part at the end. -/

section Split

variable {delimiter char : Char}

theorem splitFrom_solid {front : List Char} (hfront : delimiter ∉ front)
    (current rest : List Char) :
    splitFrom delimiter (front ++ rest) current =
      splitFrom delimiter rest (current ++ front) := by
  induction front generalizing current with
  | nil => rw [List.nil_append, List.append_nil]
  | cons head tail ih =>
      have hhead : head ≠ delimiter := fun heq => hfront (heq ▸ List.mem_cons_self)
      rw [List.cons_append, splitFrom, if_neg hhead,
        ih fun hmem => hfront (List.mem_cons_of_mem head hmem), List.append_assoc]
      rfl

@[simp] theorem split_nil : split [] delimiter = [] := rfl

theorem split_delimiter {front : List Char} (hfront : delimiter ∉ front) (rest : List Char) :
    split (front ++ delimiter :: rest) delimiter = front :: split rest delimiter := by
  rw [split, splitFrom_solid hfront, List.nil_append, splitFrom, if_pos rfl, split]

theorem split_solid {text : List Char} (htext : delimiter ∉ text) (hnonempty : text ≠ []) :
    split text delimiter = [text] := by
  have hsplit := splitFrom_solid htext [] []
  rw [List.append_nil, List.nil_append] at hsplit
  rw [split, hsplit, splitFrom, if_neg (by simpa using hnonempty)]

theorem splitFrom_eq_nil {text current : List Char}
    (hnil : splitFrom delimiter text current = []) : text = [] ∧ current = [] := by
  induction text generalizing current with
  | nil =>
      rw [splitFrom] at hnil
      split at hnil
      · next hempty => exact ⟨rfl, List.isEmpty_iff.mp hempty⟩
      · cases hnil
  | cons head tail ih =>
      rw [splitFrom] at hnil
      split at hnil
      · cases hnil
      · have hcurrent := (ih hnil).2
        simp at hcurrent

theorem split_ne_nil {text : List Char} (htext : text ≠ []) : split text delimiter ≠ [] :=
  fun hnil => htext (splitFrom_eq_nil hnil).1

theorem split_replicate (count : Nat) (rest : List Char) :
    split (List.replicate count delimiter ++ rest) delimiter =
      List.replicate count [] ++ split rest delimiter := by
  induction count with
  | zero => rfl
  | succ count ih =>
      have hfirst := @split_delimiter delimiter [] List.not_mem_nil
        (List.replicate count delimiter ++ rest)
      rw [List.nil_append] at hfirst
      rw [List.replicate_succ, List.cons_append, hfirst, ih]
      rfl

theorem mem_of_mem_splitFrom {text current piece : List Char}
    (hpiece : piece ∈ splitFrom delimiter text current) (hmem : char ∈ piece) :
    char ∈ text ∨ char ∈ current := by
  induction text generalizing current with
  | nil =>
      rw [splitFrom] at hpiece
      split at hpiece
      · cases hpiece
      · rw [List.mem_singleton.mp hpiece] at hmem
        exact .inr hmem
  | cons head tail ih =>
      rw [splitFrom] at hpiece
      split at hpiece
      · rcases List.mem_cons.mp hpiece with rfl | hrest
        · exact .inr hmem
        · exact .inl (List.mem_cons_of_mem head ((ih hrest).resolve_right List.not_mem_nil))
      · rcases ih hpiece with htail | hcurrent
        · exact .inl (List.mem_cons_of_mem head htail)
        · rcases List.mem_append.mp hcurrent with hbefore | hhead
          · exact .inr hbefore
          · rw [List.mem_singleton.mp hhead]
            exact .inl List.mem_cons_self

theorem mem_of_mem_split {text piece : List Char} (hpiece : piece ∈ split text delimiter)
    (hmem : char ∈ piece) : char ∈ text :=
  (mem_of_mem_splitFrom hpiece hmem).resolve_right List.not_mem_nil

end Split

/-! Items. -/

section Items

theorem findWord_colon {name : List Char} (hname : ':' ∉ name) (value : List Char) :
    findWord [':'] (name ++ ':' :: value) = some name.length := by
  induction name with
  | nil => rfl
  | cons head tail ih =>
      have hhead : ¬ ':' = head := fun heq => hname (heq ▸ List.mem_cons_self)
      have htail := ih fun hmem => hname (List.mem_cons_of_mem head hmem)
      rw [List.cons_append, findWord, if_neg (by simp [List.isPrefixOf, hhead]), htail]
      rfl

theorem splitItem_colon {name : List Char} (hname : ':' ∉ name) (value : List Char) :
    splitItem (name ++ ':' :: value) = some (name, value) := by
  rw [splitItem, findWord_colon hname, Option.map_some, List.take_left,
    List.drop_length_add_append]
  rfl

theorem splitItem_free {item : List Char} (hitem : ':' ∉ item) : splitItem item = none := by
  rw [splitItem, Option.map_eq_none_iff]
  cases hfound : findWord [':'] item with
  | none => rfl
  | some index =>
      obtain ⟨front, back, rfl, _⟩ := occurs_iff.mp (findWord_eq_some hfound).occurs
      exact absurd (by simp) hitem

theorem itemAccepted_free {item : List Char} (hitem : ':' ∉ item) :
    itemAccepted item = true := by
  rw [itemAccepted, splitItem_free hitem]

variable {β : Type} (get : TraceParams → β) (write : ArgName → List Char → Option β)

/-- What an item writes to a part of the parameters. -/
def itemWritten (item : List Char) : Option β :=
  (splitItem item).bind fun parts =>
    (ArgName.all.lookup parts.1).bind fun name => write name parts.2

variable {get write}

theorem parseItem_written
    (hwrite : ∀ name value traceParams,
      get (setArg name value traceParams) = (write name value).getD (get traceParams))
    {item : List Char} {traceParams next : TraceParams} {appPid nextPid : List Char}
    (hitem : parseItem item traceParams appPid = some (next, nextPid)) :
    get next = (itemWritten write item).getD (get traceParams) := by
  rw [parseItem] at hitem
  rw [itemWritten]
  cases hsplit : splitItem item with
  | none =>
      rw [hsplit] at hitem
      cases hitem
      rfl
  | some parts =>
      rw [hsplit] at hitem
      dsimp only at hitem
      rw [Option.bind_some]
      cases hname : ArgName.all.lookup parts.1 with
      | none =>
          rw [hname] at hitem
          cases hitem
      | some name =>
          rw [hname] at hitem
          rw [Option.bind_some, ← hwrite]
          cases name with
          | appPid =>
              dsimp only at hitem
              split at hitem
              · cases hitem
              · cases hitem
                rfl
          | _ =>
              cases hitem
              rfl

/-- The last item that writes to the part decides. -/
theorem parseItems_written
    (hwrite : ∀ name value traceParams,
      get (setArg name value traceParams) = (write name value).getD (get traceParams))
    {items : List (List Char)} {traceParams parsed : TraceParams} {appPid : List Char}
    (hparsed : (parseItems items traceParams appPid).1 = some parsed) :
    get parsed = (items.filterMap (itemWritten write)).getLast?.getD (get traceParams) := by
  induction items generalizing traceParams appPid with
  | nil =>
      cases hparsed
      rfl
  | cons item rest ih =>
      rw [parseItems] at hparsed
      cases hitem : parseItem item traceParams appPid with
      | none =>
          rw [hitem] at hparsed
          cases hparsed
      | some result =>
          obtain ⟨next, nextPid⟩ := result
          rw [hitem] at hparsed
          rw [ih hparsed, parseItem_written hwrite hitem]
          cases hvalue : itemWritten write item with
          | none =>
              rw [List.filterMap_cons_none hvalue]
              rfl
          | some value =>
              rw [List.filterMap_cons_some hvalue, List.getLast?_cons]
              rfl

theorem parseItems_isSome_iff (items : List (List Char)) (traceParams : TraceParams)
    (appPid : List Char) :
    (parseItems items traceParams appPid).1.isSome ↔
      ∀ item ∈ items, itemAccepted item = true := by
  induction items generalizing traceParams appPid with
  | nil => simp [parseItems]
  | cons item rest ih =>
      rw [parseItems, List.forall_mem_cons]
      cases haccepted : itemAccepted item with
      | false => simp [parseItem_eq_none haccepted]
      | true =>
          obtain ⟨next, hitem⟩ := parseItem_eq_some haccepted traceParams appPid
          rw [hitem]
          simpa using ih next _

end Items

end Hitrace
