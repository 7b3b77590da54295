import Hitrace.HitraceCmd.BootTraceLoading
import Hitrace.Library.JsonReader
import Mathlib.Data.Set.Finite.Lemmas

namespace Hitrace

open Library

/-! Which boot-trace configurations are loaded as they were written. -/

namespace BootTraceJson

open Json (Plain Spells StandsBehind Quoted Within)

/-- The parser can have found the string behind the mark. -/
def Heard (raw : Char → Bool) (config : BootTraceConfig) (mark : Char) (shown : List Char) :
    Prop :=
  ∃ string, cString string = shown ∧ StandsBehind raw mark (configText config) string

section Items

variable {raw : Char → Bool} {config : BootTraceConfig} {root item : Json} {name : List Char}
  {shown : List Char}

theorem nonEmptyString_eq_some {entry : Option Json} (hentry : nonEmptyString entry = some shown) :
    shown ≠ [] ∧ ∃ string, entry = some (.string string) ∧ cString string = shown := by
  unfold nonEmptyString at hentry
  split at hentry
  · next text =>
      split at hentry
      · cases hentry
      · next hnonempty =>
          cases hentry
          exact ⟨fun hnil => hnonempty (List.isEmpty_iff.mpr hnil), text, rfl, rfl⟩
  · cases hentry

theorem getObjectItem_eq_some (hitem : getObjectItem root name = some item) :
    ∃ members key, root = .object members ∧ (key, item) ∈ members := by
  unfold getObjectItem at hitem
  split at hitem
  · next members =>
      obtain ⟨member, hmember, rfl⟩ := Option.map_eq_some_iff.mp hitem
      exact ⟨members, member.1, rfl, List.mem_of_find?_eq_some hmember⟩
  · cases hitem

/-- A string item of the root is heard behind a colon. -/
theorem heard_of_item (hquoted : Quoted raw (configText config) root)
    (hitem : nonEmptyString (getObjectItem root name) = some shown) :
    Heard raw config ':' shown := by
  obtain ⟨_, string, hstring, hshown⟩ := nonEmptyString_eq_some hitem
  obtain ⟨members, key, rfl, hmem⟩ := getObjectItem_eq_some hstring
  exact ⟨string, hshown, hquoted.member .self hmem⟩

theorem objectItem_eq_some {entry : Option Json} (hentry : objectItem entry = some item) :
    entry = some item := by
  unfold objectItem at hentry
  split at hentry
  · exact hentry
  · cases hentry

theorem arrayItem_eq_some {entry : Option Json} {elements : List Json}
    (hentry : arrayItem entry = some elements) : entry = some (.array elements) := by
  unfold arrayItem at hentry
  split at hentry
  · cases hentry
    rfl
  · cases hentry

theorem within_of_item (hitem : getObjectItem root name = some item) : Within item root := by
  obtain ⟨members, key, rfl, hmem⟩ := getObjectItem_eq_some hitem
  exact .member hmem .self

/-- A tag of a section is heard behind a bracket or a comma. -/
theorem heard_of_mem_append (hquoted : Quoted raw (configText config) root)
    {out : List (List Char)} {tag : List Char}
    (hmem : tag ∈ appendBootTraceSectionTags root name out) :
    tag ∈ out ∨ tag ≠ [] ∧ (Heard raw config '[' tag ∨ Heard raw config ',' tag) := by
  rw [appendBootTraceSectionTags] at hmem
  split at hmem
  · exact .inl hmem
  · next sec hsec =>
      split at hmem
      · exact .inl hmem
      · split at hmem
        · exact .inl hmem
        · next elements helements =>
            rcases List.mem_append.mp hmem with hout | hfound
            · exact .inl hout
            · obtain ⟨element, helement, hstring⟩ := List.mem_filterMap.mp hfound
              obtain ⟨hnonempty, string, hentry, hshown⟩ := nonEmptyString_eq_some hstring
              cases hentry
              have hwithin := Json.within_trans
                (within_of_item (arrayItem_eq_some helements))
                (within_of_item (objectItem_eq_some hsec))
              refine .inr ⟨hnonempty, ?_⟩
              exact (hquoted.element hwithin helement).imp (fun h => ⟨string, hshown, h⟩)
                (fun h => ⟨string, hshown, h⟩)

end Items

section Loaded

variable {raw : Char → Bool} {cJson : CJson} {config : BootTraceConfig}
  {allTagInfos : List (List Char × TraceTag)} {root : Json} {cfg : BootTraceCaptureConfig}

theorem apply_kernel_keeps (cfg : BootTraceCaptureConfig) :
    (applyBootTraceKernelCaptureOptions cJson root cfg).outputPath = cfg.outputPath ∧
      (applyBootTraceKernelCaptureOptions cJson root cfg).incrementIndex = cfg.incrementIndex ∧
      (applyBootTraceKernelCaptureOptions cJson root cfg).tags = cfg.tags := by
  rw [applyBootTraceKernelCaptureOptions]
  split
  · exact ⟨rfl, rfl, rfl⟩
  · dsimp only
    split
    all_goals
      split
      · exact ⟨rfl, rfl, rfl⟩
      · split
        all_goals exact ⟨rfl, rfl, rfl⟩

theorem apply_file_keeps (cfg : BootTraceCaptureConfig) :
    (applyBootTraceFileCaptureOptions cJson root cfg).outputPath = cfg.outputPath ∧
      (applyBootTraceFileCaptureOptions cJson root cfg).incrementIndex = cfg.incrementIndex ∧
      (applyBootTraceFileCaptureOptions cJson root cfg).tags = cfg.tags := by
  rw [applyBootTraceFileCaptureOptions]
  cases boolItem (getObjectItem root "overwrite".toList)
  all_goals
    cases numberItem cJson (getObjectItem root "file_size_kb".toList)
    all_goals
      cases boolItem (getObjectItem root "inline_event_format".toList)
      all_goals
        dsimp only
        first
          | exact ⟨rfl, rfl, rfl⟩
          | split
            all_goals exact ⟨rfl, rfl, rfl⟩

/-- Where the path and the tags of a loaded configuration come from. -/
theorem fill_eq_some {durationSec : Int32}
    (hfill : fillBootTraceCaptureConfig cJson allTagInfos root durationSec = some cfg) :
    cfg.incrementIndex = resolveBootTraceIncrementIndexFromJson cJson root ∧
      cfg.outputPath = resolveBootTraceCaptureOutputPath root
        (resolveBootTraceFilePrefixFromJson root) cfg.incrementIndex ∧
      cfg.tags = appendBootTraceSectionTags root "userspace".toList
        (appendBootTraceSectionTags root "kernel".toList []) := by
  obtain ⟨list, hlist, rfl⟩ := Option.map_eq_some_iff.mp hfill
  obtain ⟨hfilePath, hfileIndex, hfileTags⟩ := @apply_file_keeps cJson root
    (applyBootTraceKernelCaptureOptions cJson root _)
  obtain ⟨hpath, hindex, htags⟩ := @apply_kernel_keeps cJson root _
  rw [hfilePath, hpath, hfileIndex, hindex, hfileTags, htags]
  refine ⟨rfl, rfl, ?_⟩
  rw [validateBootTraceCaptureTags] at hlist
  split at hlist
  · cases hlist
  · split at hlist
    · cases hlist
      rfl
    · cases hlist

theorem outputPathForPrefix_injective {first second : List Char} {incrementIndex : Int32}
    (heq : BootTrace.buildBootTraceOutputPathForPrefix first incrementIndex =
      BootTrace.buildBootTraceOutputPathForPrefix second incrementIndex) : first = second := by
  rw [BootTrace.buildBootTraceOutputPathForPrefix,
    BootTrace.buildBootTraceOutputPathForPrefix] at heq
  split at heq
  · exact List.append_cancel_left (List.append_cancel_right
      (List.append_cancel_right (List.append_cancel_right heq)))
  · exact List.append_cancel_left (List.append_cancel_right heq)

/-- The strings of a configuration that is loaded as it was written are all heard. -/
structure HeardAll (raw : Char → Bool) (config : BootTraceConfig) : Prop where
  path : config.filePrefix = BootTrace.bootTraceDefaultPrefix ∨
    Heard raw config ':' config.filePrefix ∨ Heard raw config ':' (outputPath config)
  tags : ∀ tag ∈ tags config, tag ≠ [] ∧ (Heard raw config '[' tag ∨ Heard raw config ',' tag)

theorem heard_of_resolved (hquoted : Quoted raw (configText config) root)
    (hresolved : config.filePrefix = resolveBootTraceFilePrefixFromJson root) :
    config.filePrefix = BootTrace.bootTraceDefaultPrefix ∨
      Heard raw config ':' config.filePrefix := by
  rw [resolveBootTraceFilePrefixFromJson] at hresolved
  cases hitem : nonEmptyString (getObjectItem root "file_prefix".toList) with
  | none =>
      rw [hitem] at hresolved
      exact .inl hresolved
  | some shown =>
      rw [hitem] at hresolved
      exact .inr (hresolved ▸ heard_of_item hquoted hitem)

theorem heard_path (hquoted : Quoted raw (configText config) root)
    (hresolved : resolveBootTraceCaptureOutputPath root
      (resolveBootTraceFilePrefixFromJson root) config.incrementIndex = outputPath config) :
    config.filePrefix = BootTrace.bootTraceDefaultPrefix ∨
      Heard raw config ':' config.filePrefix ∨ Heard raw config ':' (outputPath config) := by
  rw [resolveBootTraceCaptureOutputPath] at hresolved
  split at hresolved
  · have hsame := outputPathForPrefix_injective hresolved
    rcases heard_of_resolved hquoted hsame.symm with hdefault | hheard
    · exact .inl hdefault
    · exact .inr (.inl hheard)
  · next hindex =>
      cases hitem : nonEmptyString (getObjectItem root "output".toList) with
      | none =>
          have hnegative : outputPath config =
              BootTrace.buildBootTraceOutputPathForPrefix config.filePrefix (-1) := by
            rw [outputPath, BootTrace.buildBootTraceOutputPathForPrefix, if_neg hindex]
            rfl
          rw [hitem, Option.getD_none, hnegative] at hresolved
          have hsame := outputPathForPrefix_injective hresolved
          rcases heard_of_resolved hquoted hsame.symm with hdefault | hheard
          · exact .inl hdefault
          · exact .inr (.inl hheard)
      | some shown =>
          rw [hitem] at hresolved
          exact .inr (.inr (hresolved ▸ heard_of_item hquoted hitem))

theorem heardAll_of_roundTrips (hjson : IsCJson raw cJson) (hwritten : Written allTagInfos config)
    (hround : RoundTrips cJson allTagInfos config) : HeardAll raw config := by
  obtain ⟨cfg, hload, hrestored⟩ := hround
  rw [load_eq hwritten] at hload
  obtain ⟨root, hparse, hload⟩ := Option.bind_eq_some_iff.mp hload
  obtain ⟨durationSec, _, hfill⟩ := Option.bind_eq_some_iff.mp hload
  obtain ⟨_, hpath, htags⟩ := fill_eq_some hfill
  have hquoted := hjson.quoted _ _ hparse
  rw [hrestored.incrementIndex, hrestored.outputPath] at hpath
  rw [hrestored.tags] at htags
  refine ⟨heard_path hquoted hpath.symm, fun tag htag => ?_⟩
  rw [tags, htags] at htag
  rcases heard_of_mem_append hquoted htag with hkernel | hheard
  · rcases heard_of_mem_append hquoted hkernel with hnone | hheard
    · exact absurd hnone List.not_mem_nil
    · exact hheard
  · exact hheard

end Loaded

/-! A string with a special character would have to be spelled by another one. -/

/-- Among finitely many things there is no ascent. -/
theorem no_ascent {α : Type} {list : List α} {holds : α → Prop} {measure : α → Nat}
    (hascent : ∀ first ∈ list, holds first →
      ∃ second ∈ list, holds second ∧ measure first < measure second) :
    ∀ element ∈ list, ¬ holds element := by
  intro element hmem hholds
  have hfinite : {element | element ∈ list ∧ holds element}.Finite :=
    (List.finite_toSet list).subset fun other hother => hother.1
  obtain ⟨top, ⟨htop, htopHolds⟩, hmax⟩ :=
    Set.exists_max_image _ measure hfinite ⟨element, hmem, hholds⟩
  obtain ⟨next, hnext, hnextHolds, hless⟩ := hascent top htop htopHolds
  exact absurd (hmax next ⟨hnext, hnextHolds⟩) (Nat.not_le.mpr hless)

def EndsWithOpener (text : List Char) : Prop :=
  ∃ char, Json.isOpener char = true ∧ text.getLast? = some char

/-- The text is read as the string, or it takes its closing quote along. -/
def Produces (raw : Char → Bool) (text shown : List Char) : Prop :=
  Spells raw text shown ∨ text.getLast? = some '\\' ∧ EndsWithOpener shown

section Heaviest

variable {raw : Char → Bool} {config : BootTraceConfig} {limit : Nat} {mark : Char}
  {shown : List Char}

theorem weight_outputPath (config : BootTraceConfig) :
    Json.weight (outputPath config) = Json.weight config.filePrefix := by
  obtain ⟨suffix, hsuffix, _, hpath⟩ := outputPath_eq config
  have hdir : Json.weight BootTrace.bootTraceConfigDir = 0 := by decide
  rw [hpath, Json.weight_append, Json.weight_append, weight_of_isPrintable hsuffix, hdir]
  omega

theorem weight_piece_le (hclock : Json.weight config.clockType = 0)
    (hlimit : ∀ string ∈ config.filePrefix :: tags config, Json.weight string ≤ limit) :
    ∀ piece ∈ pieces config, Json.weight piece.2 ≤ limit := by
  intro piece hpiece
  obtain ⟨hfront, htags⟩ := List.forall_mem_cons.mp hlimit
  rcases (classified_pieces hclock piece hpiece).2 with hlight | ⟨_, hpath | hsame⟩ | ⟨_, htag⟩
  · omega
  · rw [hpath, weight_outputPath]
    exact hfront
  · rw [hsame]
    exact hfront
  · exact htags _ htag

/-- A heaviest string that is heard is produced by one of the strings that were put in behind
the same mark. -/
theorem produced_of_heard (hnul : raw '\x00' = false)
    (hclock : Json.weight config.clockType = 0)
    (hlimit : ∀ string ∈ config.filePrefix :: tags config, Json.weight string ≤ limit)
    (hpositive : 0 < limit) (hheard : Heard raw config mark shown)
    (hweight : Json.weight shown = limit) :
    ∃ text, Json.weight text = limit ∧ '\\' ∈ text ∧ Produces raw text shown ∧
      (mark = ':' ∧ (text = outputPath config ∨ text = config.filePrefix) ∨
        (mark = '[' ∨ mark = ',') ∧ text ∈ tags config) := by
  obtain ⟨string, hshown, hstands⟩ := hheard
  rw [configText_eq] at hstands
  obtain ⟨piece, hpiece, hmark, hheavy, hback, hproduces⟩ :=
    hstands.producer hnul (framed_pieces hclock) (weight_piece_le hclock hlimit) hpositive hshown
      hweight
  refine ⟨piece.2, hheavy, hback, hproduces, ?_⟩
  rcases (classified_pieces hclock piece hpiece).2 with hlight | ⟨hcolon, hsame⟩ | ⟨htag, hmem⟩
  · omega
  · rw [hmark] at hcolon
    exact .inl ⟨Option.some.inj hcolon, hsame⟩
  · rw [hmark] at htag
    exact .inr ⟨htag.imp Option.some.inj Option.some.inj, hmem⟩

theorem not_endsWithOpener_outputPath : ¬ EndsWithOpener (outputPath config) := by
  obtain ⟨suffix, _, hends, hpath⟩ := outputPath_eq config
  rintro ⟨char, hopener, hlast⟩
  rw [hpath, List.getLast?_append, List.getLast?_append, hends] at hlast
  cases hlast
  cases hopener

theorem not_endsWithOpener_of_backslash {text : List Char} (hlast : text.getLast? = some '\\') :
    ¬ EndsWithOpener text := by
  rintro ⟨char, hopener, hsame⟩
  rw [hlast] at hsame
  cases hsame
  cases hopener

/-- Neither the path nor the prefix produces one of them. -/
theorem not_produces_path {text : List Char} (hback : '\\' ∈ text)
    (htext : text = outputPath config ∨ text = config.filePrefix)
    (hshown : shown = outputPath config ∨ shown = config.filePrefix) :
    ¬ Produces raw text shown := by
  obtain ⟨suffix, _, hends, hpath⟩ := outputPath_eq config
  have hlonger : config.filePrefix.length < (outputPath config).length := by
    have hdir : 0 < BootTrace.bootTraceConfigDir.length := by decide
    rw [hpath, List.length_append, List.length_append]
    omega
  rintro (hspells | ⟨hlast, hopener⟩)
  · have hshorter := hspells.length_lt hback
    rcases htext with rfl | rfl
    · rcases hshown with rfl | rfl
      · omega
      · rw [hpath] at hspells
        exact Json.not_spells_between (by decide) (List.cons_ne_nil _ _) hspells
    · rcases hshown with rfl | rfl
      · omega
      · omega
  · rcases hshown with rfl | rfl
    · exact not_endsWithOpener_outputPath hopener
    · rcases htext with rfl | rfl
      · rw [hpath, List.getLast?_append, List.getLast?_append, hends] at hlast
        cases hlast
      · exact not_endsWithOpener_of_backslash hlast hopener

theorem endsWithOpener_of_spells {text : List Char} (hspells : Spells raw text shown)
    (hends : EndsWithOpener text) : EndsWithOpener shown := by
  obtain ⟨char, hopener, hlast⟩ := hends
  exact ⟨char, hopener, hspells.getLast? hlast (Json.endsNoEscape_of_isOpener hopener)⟩

/-- Each heavy tag would be produced by a longer one. -/
theorem not_heavy_tag {heavy : List Char → Prop}
    (hproduced : ∀ tag ∈ tags config, heavy tag →
      ∃ text ∈ tags config, heavy text ∧ '\\' ∈ text ∧ Produces raw text tag) :
    ∀ tag ∈ tags config, ¬ heavy tag := by
  have hends : ∀ tag ∈ tags config, ¬ (heavy tag ∧ ¬ EndsWithOpener tag) := by
    refine @no_ascent _ _ _ List.length ?_
    rintro tag htag ⟨hheavy, hopen⟩
    obtain ⟨text, htext, htextHeavy, hback, hspells | ⟨_, hopener⟩⟩ := hproduced tag htag hheavy
    · exact ⟨text, htext, ⟨htextHeavy, fun h => hopen (endsWithOpener_of_spells hspells h)⟩,
        hspells.length_lt hback⟩
    · exact absurd hopener hopen
  refine @no_ascent _ _ _ List.length ?_
  intro tag htag hheavy
  obtain ⟨text, htext, htextHeavy, hback, hspells | ⟨hlast, _⟩⟩ := hproduced tag htag hheavy
  · exact ⟨text, htext, htextHeavy, hspells.length_lt hback⟩
  · exact absurd ⟨htextHeavy, not_endsWithOpener_of_backslash hlast⟩ (hends text htext)

/-- The heaviest string has no special character. -/
theorem limit_eq_zero (hnul : raw '\x00' = false) (hclock : Json.weight config.clockType = 0)
    (hall : HeardAll raw config)
    (hlimit : ∀ string ∈ config.filePrefix :: tags config, Json.weight string ≤ limit)
    (hreached : ∃ string ∈ config.filePrefix :: tags config, Json.weight string = limit) :
    limit = 0 := by
  by_contra hzero
  have hpositive : 0 < limit := Nat.pos_of_ne_zero hzero
  obtain ⟨string, hstring, hheavy⟩ := hreached
  rcases List.mem_cons.mp hstring with rfl | htag
  · have hpath : ∀ shown, shown = outputPath config ∨ shown = config.filePrefix →
        ¬ Heard raw config ':' shown := by
      intro shown hshown hheard
      have hweight : Json.weight shown = limit := by
        rcases hshown with rfl | rfl
        · rw [weight_outputPath, hheavy]
        · exact hheavy
      obtain ⟨text, _, hback, hproduces, ⟨_, htext⟩ | ⟨hmark | hmark, _⟩⟩ :=
        produced_of_heard hnul hclock hlimit hpositive hheard hweight
      · exact not_produces_path hback htext hshown hproduces
      · cases hmark
      · cases hmark
    rcases hall.path with hdefault | hheard | hheard
    · rw [hdefault] at hheavy
      exact hzero hheavy.symm
    · exact hpath _ (.inr rfl) hheard
    · exact hpath _ (.inl rfl) hheard
  · refine @not_heavy_tag raw config (fun tag => Json.weight tag = limit) ?_ string htag hheavy
    intro tag htag hweight
    have hheard : ∃ mark, mark ≠ ':' ∧ Heard raw config mark tag := by
      rcases (hall.tags tag htag).2 with hheard | hheard
      · exact ⟨'[', by decide, hheard⟩
      · exact ⟨',', by decide, hheard⟩
    obtain ⟨mark, hmark, hheard⟩ := hheard
    obtain ⟨text, hweight, hback, hproduces, ⟨hcolon, _⟩ | ⟨_, htext⟩⟩ :=
      produced_of_heard hnul hclock hlimit hpositive hheard hweight
    · exact absurd hcolon hmark
    · exact ⟨text, htext, hweight, hback, hproduces⟩

theorem light_of_heardAll (hnul : raw '\x00' = false)
    (hclock : Json.weight config.clockType = 0) (hall : HeardAll raw config) :
    ∀ string ∈ config.filePrefix :: tags config, Json.weight string = 0 := by
  have hfinite := List.finite_toSet (config.filePrefix :: tags config)
  obtain ⟨top, htop, hmax⟩ := Set.exists_max_image _ Json.weight hfinite
    ⟨config.filePrefix, List.mem_cons_self⟩
  have hzero := limit_eq_zero hnul hclock hall hmax ⟨top, htop, rfl⟩
  intro string hstring
  have hle := hmax string hstring
  omega

end Heaviest

section Exact

variable {raw : Char → Bool} {cJson : CJson} {config : BootTraceConfig}
  {allTagInfos : List (List Char × TraceTag)}

theorem plain_of_heard {mark : Char} {shown : List Char}
    (hclock : Json.weight config.clockType = 0)
    (hlight : ∀ string ∈ config.filePrefix :: tags config, Json.weight string = 0)
    (hheard : Heard raw config mark shown) : ∀ char ∈ shown, Plain raw char := by
  obtain ⟨string, rfl, hstands⟩ := hheard
  rw [configText_eq] at hstands
  have hpieces : ∀ piece ∈ pieces config, Json.weight piece.2 = 0 := by
    intro piece hpiece
    have hle := weight_piece_le hclock (fun string hstring => Nat.le_of_eq (hlight string hstring))
      piece hpiece
    omega
  intro char hchar
  exact hstands.plain (framed_pieces hclock) hpieces char (List.takeWhile_subset _ hchar)

theorem plain_of_roundTrips (hjson : IsCJson raw cJson) (hwritten : Written allTagInfos config)
    (hround : RoundTrips cJson allTagInfos config) :
    PlainConfig raw config ∧ ∀ tag ∈ tags config, tag ≠ [] := by
  have hclock := weight_clockType hwritten.clockType
  have hall := heardAll_of_roundTrips hjson hwritten hround
  have hlight := light_of_heardAll hjson.nul hclock hall
  refine ⟨⟨?_, fun tag htag => ?_⟩, fun tag htag => (hall.tags tag htag).1⟩
  · rcases hall.path with hdefault | hheard | hheard
    · rw [hdefault]
      exact hjson.plain (by decide)
    · exact plain_of_heard hclock hlight hheard
    · obtain ⟨suffix, _, _, hpath⟩ := outputPath_eq config
      intro char hchar
      refine plain_of_heard hclock hlight hheard char ?_
      rw [hpath]
      exact List.mem_append_right _ (List.mem_append_left _ hchar)
  · rcases (hall.tags tag htag).2 with hheard | hheard
    · exact plain_of_heard hclock hlight hheard
    · exact plain_of_heard hclock hlight hheard

/-- What was written is loaded if and only if no string needs an escape or is empty. -/
theorem roundTrips_iff (hjson : IsCJson raw cJson) (hwritten : Written allTagInfos config) :
    RoundTrips cJson allTagInfos config ↔
      PlainConfig raw config ∧ ∀ tag ∈ tags config, tag ≠ [] :=
  ⟨plain_of_roundTrips hjson hwritten,
    fun hplain => roundTrips_of_plain hjson hwritten hplain.1 hplain.2⟩

end Exact

end BootTraceJson

end Hitrace
