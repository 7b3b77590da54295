import Hitrace.HitraceDump.TraceNodes
import Hitrace.Library.Words

namespace Hitrace

open Library

/-! Which words `SearchWordsByKeyWord` finds, and which clock `SetClock` takes for the one that
was asked for. -/

namespace TraceNodes

section Search

variable {key source front rest mid behind : List Char}

/-- The characters before a place that belong to the same word. -/
theorem exists_wordStart (text : List Char) :
    ∃ before run, text = before ++ run ∧ EndsApart isWordBreak before ∧
      Unbroken isWordBreak run ∧
      run.length = (text.reverse.takeWhile fun char => !isWordBreak char).length := by
  have hsplit : text.reverse.takeWhile (fun char => !isWordBreak char) ++
      text.reverse.dropWhile (fun char => !isWordBreak char) = text.reverse :=
    List.takeWhile_append_dropWhile
  refine ⟨(text.reverse.dropWhile fun char => !isWordBreak char).reverse,
    (text.reverse.takeWhile fun char => !isWordBreak char).reverse, ?_, ?_, ?_,
    List.length_reverse⟩
  · rw [← List.reverse_append, hsplit, List.reverse_reverse]
  · intro last hlast
    rw [List.getLast?_reverse] at hlast
    have hhead := List.head?_dropWhile_not (fun char => !isWordBreak char) text.reverse
    rw [hlast] at hhead
    simpa using hhead
  · intro char hchar
    simpa using List.mem_takeWhile_imp (List.mem_reverse.mp hchar)

theorem exists_wordEnd (text : List Char) :
    ∃ run after, text = run ++ after ∧ Unbroken isWordBreak run ∧
      StartsApart isWordBreak after ∧
      run.length = (text.takeWhile fun char => !isWordBreak char).length := by
  refine ⟨text.takeWhile fun char => !isWordBreak char,
    text.dropWhile fun char => !isWordBreak char, List.takeWhile_append_dropWhile.symm, ?_, ?_,
    rfl⟩
  · intro char hchar
    simpa using List.mem_takeWhile_imp hchar
  · intro head hhead
    have hnot := List.head?_dropWhile_not (fun char => !isWordBreak char) text
    rw [hhead] at hnot
    simpa using hnot

/-- The word around an occurrence begins behind the words that were found before. -/
theorem exists_before (hapart : front = [] ∨ StartsApart isWordBreak (mid ++ (key ++ behind)))
    (hkey : Unbroken isWordBreak key) (hnonempty : key ≠ []) {before run : List Char}
    (hsplit : front ++ mid = before ++ run) (hbefore : EndsApart isWordBreak before)
    (hrun : Unbroken isWordBreak run) :
    ∃ inner, before = front ++ inner ∧ mid = inner ++ run ∧ EndsApart isWordBreak inner := by
  rcases hapart with rfl | hapart
  · exact ⟨before, rfl, hsplit, hbefore⟩
  · obtain ⟨separator, tail, rfl⟩ : ∃ separator tail, mid = separator :: tail := by
      cases mid with
      | nil =>
          obtain ⟨char, others, rfl⟩ := List.exists_cons_of_ne_nil hnonempty
          have hbreak := hapart char rfl
          rw [hkey char List.mem_cons_self] at hbreak
          cases hbreak
      | cons separator tail => exact ⟨separator, tail, rfl⟩
    have hbreak : isWordBreak separator = true := hapart separator rfl
    rcases List.append_eq_append_iff.mp hsplit with ⟨inner, rfl, hmid⟩ | ⟨excess, rfl, hover⟩
    · refine ⟨inner, rfl, hmid, fun last hlast => ?_⟩
      refine hbefore last ?_
      rw [List.getLast?_append, Option.mem_def.mp hlast]
      rfl
    · have hunbroken := hrun separator
        (hover ▸ List.mem_append_right excess List.mem_cons_self)
      rw [hbreak] at hunbroken
      cases hunbroken

/-- A place that is found behind a front splits the rest. -/
theorem exists_mid (hsource : source = front ++ rest) {pos : Nat}
    (hfind : findWordFrom key source front.length = some pos) :
    ∃ mid behind, rest = mid ++ (key ++ behind) ∧ pos = (front ++ mid).length := by
  obtain ⟨⟨hfrom, hoccurs⟩, _⟩ := findWordFrom_eq_some hfind
  obtain ⟨lead, behind, hlead, rfl⟩ := occurs_iff.mp hoccurs
  have hsame := hsource.symm.trans hlead
  obtain ⟨mid, rfl⟩ : ∃ mid, lead = front ++ mid := by
    rcases List.append_eq_append_iff.mp hsame with ⟨mid, hmid, _⟩ | ⟨excess, hover, _⟩
    · exact ⟨mid, hmid⟩
    · have hlength := congrArg List.length hover
      rw [List.length_append] at hlength
      have hnil : excess = [] := List.length_eq_zero_iff.mp (by omega)
      rw [hnil, List.append_nil] at hover
      exact ⟨[], by rw [List.append_nil, hover]⟩
  rw [List.append_assoc] at hsame
  exact ⟨mid, behind, List.append_cancel_left hsame, rfl⟩

/-- In front of the first place there is no other. -/
theorem not_isInfix_of_find (hnonempty : key ≠ []) {inner start : List Char}
    (hsource : source = front ++ (inner ++ (start ++ (key ++ behind))))
    (hfind : findWordFrom key source front.length = some (front ++ (inner ++ start)).length) :
    ¬ key <:+: inner := by
  rintro ⟨first, second, rfl⟩
  obtain ⟨_, hleast⟩ := findWordFrom_eq_some hfind
  have hoccurs : Occurs key source (front ++ first).length := by
    refine occurs_iff.mpr ⟨front ++ first, second ++ (start ++ (key ++ behind)), ?_, rfl⟩
    rw [hsource]
    simp only [List.append_assoc]
  have hle := hleast ⟨by rw [List.length_append]; exact Nat.le_add_right .., hoccurs⟩
  have hpositive := List.length_pos_of_ne_nil hnonempty
  simp only [List.length_append] at hle
  omega

/-- A turn at a place: the word around it, and the search from its end. -/
theorem searchWords_found {start stop after : List Char}
    (hsource : source = front ++ (start ++ (key ++ stop) ++ after))
    (hstart : start.length =
      ((front ++ start).reverse.takeWhile fun char => !isWordBreak char).length)
    (hstop : stop.length =
      ((stop ++ after).takeWhile fun char => !isWordBreak char).length) (turns : Nat) :
    searchWords source key (turns + 1) (some (front ++ start).length) =
      (start ++ (key ++ stop)) :: searchWords source key turns
        (findWordFrom key source (front ++ (start ++ (key ++ stop))).length) := by
  have hlead : source = (front ++ start) ++ (key ++ (stop ++ after)) := by
    rw [hsource]
    simp only [List.append_assoc]
  have htake : source.take (front ++ start).length = front ++ start := by
    rw [hlead, List.take_left]
  have hdrop : source.drop ((front ++ start).length + key.length) = stop ++ after := by
    rw [hlead, ← List.append_assoc, ← List.length_append, List.drop_left]
  have hcount : (front ++ start).length - start.length = front.length := by
    simp only [List.length_append]
    omega
  have hend : (front ++ start).length + key.length + stop.length =
      (front ++ (start ++ (key ++ stop))).length := by
    simp only [List.length_append]
    omega
  have hsize : (front ++ (start ++ (key ++ stop))).length - front.length =
      (start ++ (key ++ stop)).length := by
    simp only [List.length_append]
    omega
  have hword : (source.drop front.length).take (start ++ (key ++ stop)).length =
      start ++ (key ++ stop) := by
    rw [hsource, List.drop_left, List.take_left]
  rw [searchWords, htake, hdrop, ← hstart, ← hstop, hcount, hend, hsize, hword]

/-- By induction on the turns; each one takes up the search where its word has ended. -/
theorem searchWords_eq (hkey : Unbroken isWordBreak key) (hnonempty : key ≠ []) {turns : Nat}
    (hsource : source = front ++ rest) (hapart : front = [] ∨ StartsApart isWordBreak rest)
    (hturns : rest.length < turns) :
    searchWords source key turns (findWordFrom key source front.length) =
      (words isWordBreak rest).filter fun word => decide (key <:+: word) := by
  induction turns generalizing front rest with
  | zero => omega
  | succ turns ih =>
      cases hfind : findWordFrom key source front.length with
      | none =>
          rw [searchWords]
          refine (filter_words_eq_nil ?_).symm
          rintro ⟨before, after, rfl⟩
          refine findWordFrom_eq_none hfind (Nat.le_add_right _ before.length) ?_
          refine occurs_iff.mpr ⟨front ++ before, after, ?_, by rw [List.length_append]⟩
          rw [hsource, List.append_assoc, List.append_assoc]
      | some pos =>
          obtain ⟨mid, behind, rfl, rfl⟩ := exists_mid hsource hfind
          obtain ⟨before, start, hstart, hbefore, hunbroken, hstartLength⟩ :=
            exists_wordStart (front ++ mid)
          obtain ⟨inner, rfl, rfl, hinner⟩ :=
            exists_before hapart hkey hnonempty hstart hbefore hunbroken
          obtain ⟨stop, after, rfl, hstop, hafter, hstopLength⟩ := exists_wordEnd behind
          have hword : Unbroken isWordBreak (start ++ (key ++ stop)) :=
            List.forall_mem_append.mpr ⟨hunbroken, List.forall_mem_append.mpr ⟨hkey, hstop⟩⟩
          have hwordNonempty : start ++ (key ++ stop) ≠ [] :=
            List.append_ne_nil_of_right_ne_nil _ (List.append_ne_nil_of_left_ne_nil hnonempty _)
          have hcontains : key <:+: start ++ (key ++ stop) :=
            ⟨start, stop, List.append_assoc ..⟩
          have hnone : ¬ key <:+: inner :=
            not_isInfix_of_find hnonempty (hsource.trans (by rw [List.append_assoc])) hfind
          have hparts : inner ++ start ++ (key ++ (stop ++ after)) =
              inner ++ (start ++ (key ++ stop) ++ after) := by
            simp only [List.append_assoc]
          have hwhole : source = (front ++ inner) ++ (start ++ (key ++ stop) ++ after) := by
            rw [hsource]
            simp only [List.append_assoc]
          have hturn := searchWords_found hwhole (by rw [hstartLength, List.append_assoc])
            hstopLength turns
          rw [List.append_assoc] at hturn
          rw [hturn, hparts, words_append_word hinner hword hwordNonempty hafter,
            List.filter_append, filter_words_eq_nil hnone, List.nil_append, List.filter_cons,
            if_pos (decide_eq_true hcontains)]
          refine congrArg (List.cons _) (ih ?_ (.inr hafter) ?_)
          · rw [hwhole]
            simp only [List.append_assoc]
          · have hpositive := List.length_pos_of_ne_nil hnonempty
            simp only [List.length_append] at hturns ⊢
            omega

theorem searchWordsByKeyWord_eq (hkey : Unbroken isWordBreak key) (hnonempty : key ≠ []) :
    searchWordsByKeyWord source key =
      (words isWordBreak source).filter fun word => decide (key <:+: word) := by
  have hstart : findWord key source = findWordFrom key source ([] : List Char).length := by
    rw [findWordFrom, List.length_nil, if_pos (Nat.zero_le _), List.drop_zero]
    cases findWord key source with
    | none => rfl
    | some pos => rw [Option.map_some, Nat.zero_add]
  rw [searchWordsByKeyWord, if_neg (by simpa using hnonempty), hstart]
  exact searchWords_eq hkey hnonempty rfl (.inl rfl) (Nat.lt_succ_self _)

end Search

/-! The clock. -/

def markedClock (clockType : List Char) : List Char :=
  '[' :: (clockType ++ [']'])

/-- The first word that is the clock, marked as the current one or not. -/
def firstClock (clocks clockType : List Char) : Option (List Char) :=
  (words isWordBreak clocks).find? fun word =>
    word == clockType || word == markedClock clockType

section Clock

variable {clockType word : List Char}

theorem eq_of_isInfix_of_length (hinside : clockType <:+: word)
    (hlength : word.length = clockType.length) : word = clockType :=
  (hinside.eq_of_length hlength.symm).symm

theorem eq_markedClock (hinside : clockType <:+: word) (hopen : '[' ∉ clockType)
    (hclose : ']' ∉ clockType) (hlength : word.length - clockType.length = 2)
    (hhead : word.head? = some '[') (hlast : word.getLast? = some ']') :
    word = markedClock clockType := by
  obtain ⟨front, behind, rfl⟩ := hinside
  simp only [List.length_append] at hlength
  have hsum : front.length + behind.length = 2 := by omega
  cases front with
  | nil =>
      rw [List.nil_append] at hhead
      cases clockType with
      | nil =>
          rw [List.nil_append] at hhead hlast
          rw [List.length_nil, Nat.zero_add] at hsum
          obtain ⟨first, second, rfl⟩ := List.length_eq_two.mp hsum
          cases hhead
          cases hlast
          rfl
      | cons char rest =>
          cases hhead
          exact absurd List.mem_cons_self hopen
  | cons first front =>
      cases hhead
      cases front with
      | nil =>
          obtain ⟨last, rfl⟩ := List.length_eq_one_iff.mp
            (by rw [List.length_singleton] at hsum; omega : behind.length = 1)
          rw [List.getLast?_append] at hlast
          cases hlast
          rfl
      | cons second front =>
          simp only [List.length_cons] at hsum
          have hbehind : behind = [] := List.length_eq_zero_iff.mp (by omega)
          have hfront : front = [] := List.length_eq_zero_iff.mp (by omega)
          subst hbehind hfront
          rw [List.append_nil, List.getLast?_append] at hlast
          cases hrest : clockType.getLast? with
          | none =>
              rw [hrest] at hlast
              rw [List.getLast?_eq_none_iff.mp hrest]
              cases hlast
              rfl
          | some last =>
              rw [hrest] at hlast
              cases hlast
              exact absurd (List.mem_of_getLast? hrest) hclose

/-- A word that holds the clock counts exactly if it is the clock or the marked clock. -/
theorem targetClock_eq (hopen : '[' ∉ clockType) (hclose : ']' ∉ clockType)
    {found : List (List Char)} (hfound : ∀ word ∈ found, clockType <:+: word) :
    targetClock clockType found =
      match found.find? fun word => word == clockType || word == markedClock clockType with
      | none => some "boot".toList
      | some word => if word = clockType then some clockType else none := by
  induction found with
  | nil => rfl
  | cons word rest ih =>
      obtain ⟨hword, hrest⟩ := List.forall_mem_cons.mp hfound
      have hmarked : (markedClock clockType).length = clockType.length + 2 := by
        simp [markedClock]
      rw [targetClock, List.find?_cons]
      by_cases hsame : word = clockType
      · rw [if_pos (congrArg List.length hsame), hsame]
        simp
      · have hlength : word.length ≠ clockType.length :=
          fun hlength => hsame (eq_of_isInfix_of_length hword hlength)
        rw [if_neg hlength]
        by_cases hmark : word = markedClock clockType
        · have hlast : (markedClock clockType).getLast? = some ']' := by
            rw [markedClock, List.getLast?_cons, List.getLast?_append]
            rfl
          rw [if_pos ⟨by rw [hmark, hmarked]; omega, by rw [hmark]; rfl, by rw [hmark, hlast]⟩]
          simp [hmark, show markedClock clockType ≠ clockType from hmark ▸ hsame]
        · rw [if_neg fun hfits =>
            hmark (eq_markedClock hword hopen hclose hfits.1 hfits.2.1 hfits.2.2), ih hrest,
            beq_eq_false_iff_ne.mpr hsame, beq_eq_false_iff_ne.mpr hmark]
          rfl

theorem find?_filter_words (clocks : List Char) :
    ((words isWordBreak clocks).filter fun word => decide (clockType <:+: word)).find?
        (fun word => word == clockType || word == markedClock clockType) =
      firstClock clocks clockType := by
  rw [firstClock, List.find?_filter]
  refine congrArg (fun seeks => List.find? seeks (words isWordBreak clocks)) ?_
  funext word
  have hmarked : clockType <:+: markedClock clockType := ⟨['['], [']'], rfl⟩
  by_cases hsame : word = clockType
  · rw [hsame]
    simp
  · by_cases hmark : word = markedClock clockType
    · rw [hmark]
      simp [hmarked]
    · simp [hsame, hmark]

/-- The words of a key, and the clock that is chosen by them; for no clock it is `boot`. -/
theorem search_words_and_set_clock :
    (∀ source key : List Char, key ≠ [] → Unbroken isWordBreak key →
      searchWordsByKeyWord source key =
        (words isWordBreak source).filter fun word => decide (key <:+: word)) ∧
    (∀ (ν : Type) [DecidableEq ν] (tree : NodeTree ν) (state : NodeState ν),
      state.setClock tree [] = state.writeStrToFile tree traceClock "boot".toList) ∧
    ∀ (ν : Type) [DecidableEq ν] (tree : NodeTree ν) (state : NodeState ν) (clockType : List Char),
      clockType ≠ [] → Unbroken isWordBreak clockType → '[' ∉ clockType → ']' ∉ clockType →
        let clocks := state.readFile tree traceClock
        (targetClock clockType (searchWordsByKeyWord clocks clockType) = none ↔
          firstClock clocks clockType = some (markedClock clockType)) ∧
        (firstClock clocks clockType = some (markedClock clockType) →
          state.setClock tree clockType = state) ∧
        (firstClock clocks clockType = some clockType →
          state.setClock tree clockType = state.writeStrToFile tree traceClock clockType) ∧
        (firstClock clocks clockType = none →
          state.setClock tree clockType =
            state.writeStrToFile tree traceClock "boot".toList) := by
  refine ⟨fun source key hnonempty hkey => searchWordsByKeyWord_eq hkey hnonempty,
    fun _ _ _ _ => rfl, ?_⟩
  intro ν _ tree state clockType hnonempty hkey hopen hclose
  have htarget : targetClock clockType
      (searchWordsByKeyWord (state.readFile tree traceClock) clockType) =
        match firstClock (state.readFile tree traceClock) clockType with
        | none => some "boot".toList
        | some word => if word = clockType then some clockType else none := by
    rw [searchWordsByKeyWord_eq hkey hnonempty, targetClock_eq hopen hclose fun word hmem =>
      of_decide_eq_true (List.mem_filter.mp hmem).2, find?_filter_words]
  have hdistinct : markedClock clockType ≠ clockType := by
    intro heq
    exact hopen (heq ▸ List.mem_cons_self)
  dsimp only
  rw [NodeState.setClock, htarget]
  refine ⟨?_, fun hfirst => ?_, fun hfirst => ?_, fun hfirst => ?_⟩
  · cases hfirst : firstClock (state.readFile tree traceClock) clockType with
    | none => simp
    | some word =>
        have hword := List.find?_some hfirst
        rw [Bool.or_eq_true, beq_iff_eq, beq_iff_eq] at hword
        rcases hword with rfl | rfl
        · simp [hdistinct.symm]
        · simp [hdistinct]
  · rw [hfirst]
    dsimp only
    rw [if_neg hdistinct]
  · rw [hfirst]
    dsimp only
    rw [if_pos rfl]
  · rw [hfirst]

end Clock

/-- A clock with a blank is taken for a part of a longer text that is no word. -/
theorem blank_in_clock_is_found :
    ¬ ∀ (tree : NodeTree (List Char)) (state : NodeState (List Char)) (clockType : List Char),
      '[' ∉ clockType → ']' ∉ clockType →
        firstClock (state.readFile tree traceClock) clockType = none →
          state.setClock tree clockType =
            state.writeStrToFile tree traceClock "boot".toList := by
  intro hall
  have hset := hall ⟨id, by decide⟩ ⟨fun _ => "[a b]".toList, []⟩ "a b".toList (by decide)
    (by decide) (by decide)
  have hnode := congrArg (fun state => NodeState.nodes state traceClock) hset
  exact absurd hnode (by decide)

end TraceNodes

end Hitrace
