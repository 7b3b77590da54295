import Hitrace.Utils.WordSearch

namespace Hitrace

open Library

/-! The names of the apps whose trace is kept, from `hitrace_option.cpp`. -/

namespace AppFilter

def maxAppNameLen : Nat := 10

/-- The value for `debug.hitrace.telemetry.app`, when there are not too many names. -/
def joinApps : List (List Char) → List Char
  | [] => []
  | [app] => app
  | app :: rest => app ++ '\t' :: joinApps rest

def setFilterAppName (apps : List (List Char)) : Option (List Char) :=
  if apps.length > maxAppNameLen then none else some (joinApps apps)

/-- The process ids that `AddFilterPid` is called with; `none` means that the loop is not
done within the turns. -/
def filterAppTraceLoop (paramApp app : List Char) (pid : Int) :
    Nat → Option Nat → Option (List Int)
  | _, none => some []
  | 0, some _ => none
  | turns + 1, some pos =>
      let left := pos
      let right := pos + app.length
      if (left > 0 ∧ paramApp[left - 1]? ≠ some '\t') ∨
          (right < paramApp.length ∧ paramApp[right]? ≠ some '\t') then
        filterAppTraceLoop paramApp app pid turns (findWordFrom app paramApp right)
      else some [pid]

/-- `app` is null or a C string. -/
def filterAppTrace (paramApp : List Char) (app : Option (List Char)) (pid : Int)
    (turns : Nat) : Option (List Int) :=
  match app with
  | none => some []
  | some app => filterAppTraceLoop paramApp app pid turns (findWordFrom app paramApp 0)

/-! The names in the parameter. -/

theorem joinApps_eq (apps : List (List Char)) : joinApps apps = ['\t'].intercalate apps := by
  induction apps with
  | nil => rfl
  | cons app rest ih =>
      cases rest with
      | nil => simp [joinApps]
      | cons second rest =>
          rw [joinApps, ih, List.intercalate_cons_cons]
          · simp
          · exact List.cons_ne_nil _ _

/-- The names that were stored are those between the tabs. -/
theorem splitOn_setFilterAppName {apps : List (List Char)} {paramApp : List Char}
    (hset : setFilterAppName apps = some paramApp) (hnonempty : apps ≠ [])
    (htabs : ∀ app ∈ apps, '\t' ∉ app) : paramApp.splitOn '\t' = apps := by
  rw [setFilterAppName] at hset
  split at hset
  · cases hset
  · cases hset
    rw [joinApps_eq]
    exact List.splitOn_intercalate '\t' htabs hnonempty

/-! The loop. -/

section Loop

variable {paramApp app : List Char} {pid : Int}

theorem filterAppTraceLoop_mono {turns more : Nat} (hmore : turns ≤ more) {found : Option Nat}
    {pids : List Int} (hpids : filterAppTraceLoop paramApp app pid turns found = some pids) :
    filterAppTraceLoop paramApp app pid more found = some pids := by
  induction turns generalizing more found with
  | zero =>
      cases found with
      | none =>
          rw [filterAppTraceLoop] at hpids ⊢
          exact hpids
      | some pos => cases hpids
  | succ turns ih =>
      cases found with
      | none =>
          rw [filterAppTraceLoop] at hpids ⊢
          exact hpids
      | some pos =>
          obtain ⟨others, rfl⟩ : ∃ others, more = others + 1 := ⟨more - 1, by omega⟩
          rw [filterAppTraceLoop] at hpids ⊢
          split
          · next hrejected =>
              rw [if_pos hrejected] at hpids
              exact ih (by omega) hpids
          · next haccepted =>
              rw [if_neg haccepted] at hpids
              exact hpids

theorem filterAppTrace_unique {turns others : Nat} {pids rest : List Int}
    (hpids : filterAppTrace paramApp (some app) pid turns = some pids)
    (hrest : filterAppTrace paramApp (some app) pid others = some rest) : pids = rest := by
  have hleft := filterAppTraceLoop_mono (Nat.le_max_left turns others) hpids
  have hright := filterAppTraceLoop_mono (Nat.le_max_right turns others) hrest
  exact Option.some.inj (hleft.symm.trans hright)

/-- An occurrence that the loop comes to, and that is a name by its surroundings. -/
def Matches (paramApp app : List Char) (start : Nat) : Prop :=
  ∃ position, Taken app paramApp start position ∧ Delimited '\t' app paramApp position

theorem rejects_iff {pos : Nat} (hoccurs : Occurs app paramApp pos) :
    (pos > 0 ∧ paramApp[pos - 1]? ≠ some '\t') ∨
        (pos + app.length < paramApp.length ∧ paramApp[pos + app.length]? ≠ some '\t') ↔
      ¬ Delimited '\t' app paramApp pos := by
  have hinside := hoccurs.add_length_le
  have hleft : (pos > 0 ∧ paramApp[pos - 1]? ≠ some '\t') ↔
      ¬ (pos = 0 ∨ paramApp[pos - 1]? = some '\t') := by
    rw [not_or, gt_iff_lt, Nat.pos_iff_ne_zero]
  have hright : (pos + app.length < paramApp.length ∧
      paramApp[pos + app.length]? ≠ some '\t') ↔
        ¬ (pos + app.length = paramApp.length ∨ paramApp[pos + app.length]? = some '\t') := by
    rw [not_or, Nat.lt_iff_le_and_ne]
    simp only [hinside, true_and, ne_eq]
  rw [hleft, hright, Delimited, not_and_or]

theorem matches_iff {start pos : Nat} (hfirst : FirstFrom app paramApp start pos) :
    Matches paramApp app start ↔
      Delimited '\t' app paramApp pos ∨ Matches paramApp app (pos + app.length) := by
  simp only [Matches, taken_iff hfirst]
  constructor
  · rintro ⟨position, rfl | hrest, hdelimited⟩
    · exact Or.inl hdelimited
    · exact Or.inr ⟨position, hrest, hdelimited⟩
  · rintro (hdelimited | ⟨position, hrest, hdelimited⟩)
    · exact ⟨pos, Or.inl rfl, hdelimited⟩
    · exact ⟨position, Or.inr hrest, hdelimited⟩

/-- With a name that is not empty every turn starts further to the right. -/
theorem filterAppTraceLoop_ends (happ : app ≠ []) (start : Nat) :
    ∃ turns pids,
      filterAppTraceLoop paramApp app pid turns (findWordFrom app paramApp start) =
          some pids ∧
        (Matches paramApp app start → pids = [pid]) ∧
        (¬ Matches paramApp app start → pids = []) := by
  have hlength : 0 < app.length := List.length_pos_iff.mpr happ
  induction hdistance : paramApp.length - start using Nat.strong_induction_on
    generalizing start with
  | _ distance ih =>
      cases hfound : findWordFrom app paramApp start with
      | none =>
          refine ⟨0, [], rfl, ?_, fun _ => rfl⟩
          rintro ⟨position, htaken, _⟩
          obtain ⟨first, ⟨hfrom, hoccurs⟩, _⟩ := htaken.exists_first
          exact absurd hoccurs (findWordFrom_eq_none hfound hfrom)
      | some pos =>
          have hfirst := findWordFrom_eq_some hfound
          have hinside := hfirst.occurs.add_length_le
          have hfrom : start ≤ pos := hfirst.1.1
          obtain ⟨turns, pids, hpids, hyes, hno⟩ :=
            ih _ (by omega) (pos + app.length) rfl
          simp only [matches_iff hfirst]
          by_cases hdelimited : Delimited '\t' app paramApp pos
          · refine ⟨1, [pid], ?_, fun _ => rfl, fun hnone => ?_⟩
            · rw [filterAppTraceLoop]
              exact if_neg (fun hrejects => (rejects_iff hfirst.occurs).mp hrejects hdelimited)
            · exact absurd (Or.inl hdelimited) hnone
          · refine ⟨turns + 1, pids, ?_, fun hmatches => ?_, fun hnone => ?_⟩
            · rw [filterAppTraceLoop, if_pos ((rejects_iff hfirst.occurs).mpr hdelimited)]
              exact hpids
            · exact hyes (hmatches.resolve_left hdelimited)
            · exact hno fun hmatches => hnone (Or.inr hmatches)

/-- The empty name is found where the search starts, again and again. -/
theorem filterAppTraceLoop_empty {head : Char} {tail : List Char} (hhead : head ≠ '\t')
    (turns : Nat) : filterAppTraceLoop (head :: tail) [] pid turns (some 0) = none := by
  induction turns with
  | zero => rfl
  | succ turns ih =>
      rw [filterAppTraceLoop, if_pos]
      · exact ih
      · right
        simpa using hhead

end Loop

/-- The strings for which the scan is exact. -/
def Scannable (paramApp app : List Char) : Prop :=
  (app = [] → paramApp = [] ∨ paramApp.head? = some '\t') ∧
    ('\t' ∈ app → ¬ Matches paramApp app 0)

/-- The scan ends with one call for a name in the parameter, and with none otherwise,
exactly when the string is scannable. -/
theorem filter_app_trace_iff (paramApp app : List Char) (pid : Int) :
    (∃ turns, filterAppTrace paramApp (some app) pid turns =
      some (if app ∈ paramApp.splitOn '\t' then [pid] else [])) ↔
      Scannable paramApp app := by
  by_cases happ : app = []
  · subst happ
    have htabs : ¬ ('\t' ∈ ([] : List Char)) := List.not_mem_nil
    cases paramApp with
    | nil => exact iff_of_true ⟨1, rfl⟩ ⟨fun _ => Or.inl rfl, fun htab => absurd htab htabs⟩
    | cons head tail =>
        by_cases hhead : head = '\t'
        · subst hhead
          refine iff_of_true ⟨1, ?_⟩ ⟨fun _ => Or.inr rfl, fun htab => absurd htab htabs⟩
          have hmem : [] ∈ ('\t' :: tail).splitOn '\t' := by
            simp [List.splitOn_cons_eq_if_modifyHead]
          rw [if_pos hmem]
          have hfound : findWordFrom [] ('\t' :: tail) 0 = some 0 := rfl
          simp [filterAppTrace, hfound, filterAppTraceLoop]
        · refine iff_of_false ?_ ?_
          · rintro ⟨turns, hturns⟩
            have hnone : filterAppTrace (head :: tail) (some []) pid turns = none :=
              filterAppTraceLoop_empty hhead turns
            rw [hnone] at hturns
            cases hturns
          · rintro ⟨hempty, _⟩
            have hfirst := hempty rfl
            simp [hhead] at hfirst
  · obtain ⟨turns, pids, hpids, hyes, hno⟩ :=
      @filterAppTraceLoop_ends paramApp app pid happ 0
    by_cases htab : '\t' ∈ app
    · have hnot : app ∉ paramApp.splitOn '\t' := fun hmem => not_mem_of_mem_splitOn hmem htab
      rw [if_neg hnot]
      constructor
      · rintro ⟨others, hothers⟩
        refine ⟨fun hempty => absurd hempty happ, fun _ hmatches => ?_⟩
        have hsame := filterAppTrace_unique hpids hothers
        rw [hyes hmatches] at hsame
        cases hsame
      · rintro ⟨_, hnone⟩
        exact ⟨turns, hpids.trans (congrArg some (hno (hnone htab)))⟩
    · have hnames : app ∈ paramApp.splitOn '\t' ↔ Matches paramApp app 0 := by
        rw [mem_splitOn_iff htab, Matches]
        constructor
        · rintro ⟨position, hoccurs, hdelimited⟩
          exact ⟨position, taken_of_delimited htab hoccurs hdelimited happ (Nat.zero_le _),
            hdelimited⟩
        · rintro ⟨position, htaken, hdelimited⟩
          exact ⟨position, htaken.occurs, hdelimited⟩
      refine iff_of_true ⟨turns, hpids.trans (congrArg some ?_)⟩
        ⟨fun hempty => absurd hempty happ, fun hmem => absurd hmem htab⟩
      split
      · next hmem => exact hyes (hnames.mp hmem)
      · next hmem => exact hno (mt hnames.mpr hmem)

/-- The search for the empty name comes back to the front of a stored name for ever. -/
theorem empty_app_never_ends :
    ¬ ∀ (apps : List (List Char)) (paramApp app : List Char) (pid : Int),
      (∀ name ∈ apps, '\t' ∉ name) → setFilterAppName apps = some paramApp →
        ∃ turns, filterAppTrace paramApp (some app) pid turns =
          some (if app ∈ paramApp.splitOn '\t' then [pid] else []) := by
  intro hclaim
  obtain ⟨turns, hturns⟩ := hclaim ["camera".toList] "camera".toList [] 7 (by decide) rfl
  have hnone : filterAppTrace "camera".toList (some []) 7 turns = none :=
    filterAppTraceLoop_empty (by decide) turns
  rw [hnone] at hturns
  cases hturns

end AppFilter

end Hitrace
