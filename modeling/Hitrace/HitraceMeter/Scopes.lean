import Hitrace.HitraceMeter.TraceMarker
import Hitrace.Library.Bracket

namespace Hitrace

namespace HitraceMeter

open AppTrace Library

/-! The scope classes of `hitrace_meter.h`, whose constructor puts down a begin marker
and whose destructor an end marker. -/

def varNameMaxSize : Nat := 400

structure MeterSettings extends SystemSettings where
  isHitraceMeterDisabled : Bool
  appFd : Bool
  appTag : UInt64
deriving Repr, DecidableEq

def MeterSettings.markerRecord (settings : MeterSettings) (pid : ProcId)
    (hiTraceId : HiTraceIdStruct) (request : MarkerRequest) : Option (List UInt8) :=
  match request.marker pid with
  | none => none
  | some marker =>
      if settings.isHitraceMeterDisabled then none
      else if settings.matchesTag marker.tag then
        if settings.drops (raiseLevel marker) then none
        else some (record hiTraceId (raiseLevel marker))
      else none

/-- `vsnprintf_s` into a buffer of `VAR_NAME_MAX_SIZE` bytes. -/
def vsnprintfS (expansion : List UInt8) : Option (List UInt8) :=
  if expansion.length < varNameMaxSize then some (expansion.takeWhile (· ≠ 0)) else none

/-- A scope object with the arguments of its constructor; `expansion` is what the
format and its arguments come to. -/
inductive Scope
  | hitraceScoped (tag : UInt64) (name : List UInt8)
  | hitraceScopedEx (level : Int) (tag : UInt64) (name customArgs : Option (List UInt8))
  | hitraceMeterFmtScoped (tag : UInt64) (expansion : List UInt8)
  | hitraceMeterFmtScopedEx (level : Int) (tag : UInt64)
      (customArgs : Option (List UInt8)) (expansion : List UInt8)
deriving Repr, DecidableEq

def hitraceLevelInfo : Int := 1

def startTrace (tag : UInt64) (name : List UInt8) : MarkerRequest :=
  { type := .begin, level := hitraceLevelInfo, tag, name := some name }

def startTraceEx (level : Int) (tag : UInt64) (name customArgs : Option (List UInt8)) :
    MarkerRequest :=
  { type := .begin, level, tag, name, customArgs }

def finishTrace (tag : UInt64) : MarkerRequest :=
  { type := .end, level := hitraceLevelInfo, tag }

def finishTraceEx (level : Int) (tag : UInt64) : MarkerRequest :=
  { type := .end, level, tag }

/-- The check in front of the formatting. -/
def MeterSettings.skipsFormat (settings : MeterSettings) (tag : UInt64) : Bool :=
  (decide (tag &&& settings.tagsProperty = 0) || settings.isHitraceMeterDisabled) &&
    (!settings.appFd || decide (tag &&& settings.appTag = 0))

namespace Scope

/-- The marker of the constructor, if it gets to it. -/
def begins (settings : MeterSettings) : Scope → Option MarkerRequest
  | .hitraceScoped tag name => some (startTrace tag (name.takeWhile (· ≠ 0)))
  | .hitraceScopedEx level tag name customArgs =>
      some (startTraceEx level tag name customArgs)
  | .hitraceMeterFmtScoped tag expansion =>
      if settings.skipsFormat tag then none
      else (vsnprintfS expansion).map fun name => startTrace tag name
  | .hitraceMeterFmtScopedEx level tag customArgs expansion =>
      if settings.skipsFormat tag then none
      else
        (vsnprintfS expansion).map fun name => startTraceEx level tag (some name) customArgs

/-- The marker of the destructor. -/
def ends : Scope → MarkerRequest
  | .hitraceScoped tag _ => finishTrace tag
  | .hitraceScopedEx level tag _ _ => finishTraceEx level tag
  | .hitraceMeterFmtScoped tag _ => finishTrace tag
  | .hitraceMeterFmtScopedEx level tag _ _ => finishTraceEx level tag

def beginRecord (settings : MeterSettings) (pid : ProcId) (hiTraceId : HiTraceIdStruct)
    (scope : Scope) : Option (List UInt8) :=
  (scope.begins settings).bind (settings.markerRecord pid hiTraceId)

def endRecord (settings : MeterSettings) (pid : ProcId) (hiTraceId : HiTraceIdStruct)
    (scope : Scope) : Option (List UInt8) :=
  settings.markerRecord pid hiTraceId scope.ends

end Scope

/-- A well-nested sequence of scopes on one thread, each with the chain ids of the thread
when it begins and when it ends. -/
inductive Scopes
  | nil
  | cons (scope : Scope) (begun ended : HiTraceIdStruct) (inside rest : Scopes)

namespace Scopes

def count : Scopes → Nat
  | .nil => 0
  | .cons _ _ _ inside rest => inside.count + rest.count + 1

/-- The records in the order of their writing, each with the number of its scope in the
order of construction. -/
def records (settings : MeterSettings) (pid : ProcId) : Nat → Scopes → List (Nat × List UInt8)
  | _, .nil => []
  | number, .cons scope begun ended inside rest =>
      (scope.beginRecord settings pid begun).toList.map (number, ·) ++
        inside.records settings pid (number + 1) ++
        (scope.endRecord settings pid ended).toList.map (number, ·) ++
        rest.records settings pid (number + 1 + inside.count)

def all : Scopes → List Scope
  | .nil => []
  | .cons scope _ _ inside rest => scope :: inside.all ++ rest.all

end Scopes

/-- A record of `trace_marker` as a bracket. -/
def bracket : Nat × List UInt8 → Option (Bracket Nat)
  | (scope, 66 :: _) => some (.opening scope)
  | (scope, 69 :: _) => some (.closing scope)
  | _ => none

def word (settings : MeterSettings) (pid : ProcId) (number : Nat) (scopes : Scopes) :
    List (Bracket Nat) :=
  (scopes.records settings pid number).filterMap bracket

/-- The record of the initialised library is the one of `AddHitraceMeterMarker`. -/
theorem addHitraceMeterMarker_record {settings : MeterSettings} {caller : Caller}
    {request : MarkerRequest} {app next : AppTrace} {written : Option (List UInt8)}
    (hcall : addHitraceMeterMarker settings.toSystemSettings
      (!settings.isHitraceMeterDisabled) caller request app = some (next, written)) :
    written = settings.markerRecord caller.pid caller.hiTraceId request := by
  rw [addHitraceMeterMarker] at hcall
  rw [MeterSettings.markerRecord]
  cases hmarker : request.marker caller.pid with
  | none =>
      rw [hmarker] at hcall
      cases hcall
      rfl
  | some marker =>
      rw [hmarker] at hcall
      dsimp only at hcall ⊢
      rw [Bool.not_not] at hcall
      split at hcall
      · next hdisabled =>
          cases hcall
          rw [if_pos hdisabled]
      · next hdisabled =>
          rw [if_neg hdisabled]
          split at hcall
          · next hmatches =>
              rw [if_pos hmatches]
              split at hcall
              · next hdrops =>
                  cases hcall
                  rw [if_pos hdrops]
              · next hdrops =>
                  obtain ⟨_, _, heq⟩ := Option.map_eq_some_iff.mp hcall
                  cases heq
                  rw [if_neg hdrops]
          · next hmatches =>
              obtain ⟨_, _, heq⟩ := Option.map_eq_some_iff.mp hcall
              cases heq
              rw [if_neg hmatches]

/-! The letter of a record is its first byte. -/

/-- What a writer puts down stands behind what is there. -/
def Appends (writer : List UInt8 → List UInt8) : Prop :=
  ∀ record, record <+: writer record

theorem Appends.comp {first second : List UInt8 → List UInt8} (hfirst : Appends first)
    (hsecond : Appends second) : Appends fun record => second (first record) := by
  intro record
  exact (hfirst record).trans (hsecond (first record))

theorem appends_addStringToBuffer (src : List UInt8) : Appends (addStringToBuffer src) := by
  intro record
  exact List.prefix_append record _

theorem appends_addCharToBuffer (value : UInt8) : Appends (addCharToBuffer value) := by
  intro record
  rw [addCharToBuffer]
  split
  · exact List.prefix_append record _
  · exact List.prefix_refl record

theorem appends_addDigits (base value : Nat) : Appends (addDigits base value) :=
  appends_addStringToBuffer _

theorem appends_addUInt64HexValueToBuffer (value : Nat) :
    Appends (addUInt64HexValueToBuffer value) := by
  intro record
  rw [addUInt64HexValueToBuffer]
  split
  · exact appends_addCharToBuffer 48 record
  · exact appends_addDigits 16 value record

theorem appends_addUInt32DecValueToBuffer (value : Nat) :
    Appends (addUInt32DecValueToBuffer value) := by
  intro record
  rw [addUInt32DecValueToBuffer]
  split
  · exact appends_addCharToBuffer 48 record
  · exact appends_addDigits 10 value record

theorem appends_writeHitraceId (hiTraceId : HiTraceIdStruct) :
    Appends (writeHitraceId hiTraceId) := by
  intro record
  rw [writeHitraceId]
  split
  · exact ((appends_addCharToBuffer 91).comp
      ((appends_addUInt64HexValueToBuffer _).comp
      ((appends_addCharToBuffer 44).comp
      ((appends_addUInt64HexValueToBuffer _).comp
      ((appends_addCharToBuffer 44).comp
      ((appends_addUInt64HexValueToBuffer _).comp
        (appends_addStringToBuffer _))))))) record
  · exact List.prefix_refl record

theorem appends_writeLabel (marker : TraceMarker) : Appends (writeLabel marker) :=
  (appends_addStringToBuffer _).comp (appends_addStringToBuffer _)

theorem appends_writeNamed (hiTraceId : HiTraceIdStruct) (marker : TraceMarker) :
    Appends (writeNamed hiTraceId marker) :=
  (appends_addUInt32DecValueToBuffer _).comp
    ((appends_addStringToBuffer _).comp
    ((appends_writeHitraceId _).comp
    ((appends_addStringToBuffer _).comp (appends_addCharToBuffer _))))

theorem appends_writeText (text : List UInt8) : Appends (writeText text) :=
  (appends_addCharToBuffer _).comp (appends_addStringToBuffer _)

theorem begin_letter (hiTraceId : HiTraceIdStruct) (marker : TraceMarker) :
    bytesOf "B|" <+: writeSyncBeginRecord hiTraceId marker := by
  have hnamed := ((appends_writeNamed hiTraceId marker).comp (appends_writeLabel marker))
    (bytesOf "B|")
  rw [writeSyncBeginRecord]
  split
  · exact hnamed.trans (appends_writeText _ _)
  · exact hnamed

theorem end_letter (marker : TraceMarker) : bytesOf "E|" <+: writeSyncEndRecord marker :=
  ((appends_addUInt32DecValueToBuffer _).comp
    ((appends_addCharToBuffer _).comp (appends_writeLabel marker))) (bytesOf "E|")

/-! Which markers of a scope are written. -/

/-- A marker of this level and tag gets to `trace_marker`. -/
def MeterSettings.traces (settings : MeterSettings) (pid : ProcId) (level : Int)
    (tag : UInt64) : Bool :=
  match outputLevel level with
  | none => false
  | some output =>
      !settings.isHitraceMeterDisabled && settings.matchesTag tag &&
        !settings.drops (raiseLevel ⟨.begin, output, tag, 0, [], [], [], pid⟩)

namespace Scope

def level : Scope → Int
  | .hitraceScoped _ _ => hitraceLevelInfo
  | .hitraceScopedEx level _ _ _ => level
  | .hitraceMeterFmtScoped _ _ => hitraceLevelInfo
  | .hitraceMeterFmtScopedEx level _ _ _ => level

def tag : Scope → UInt64
  | .hitraceScoped tag _ => tag
  | .hitraceScopedEx _ tag _ _ => tag
  | .hitraceMeterFmtScoped tag _ => tag
  | .hitraceMeterFmtScopedEx _ tag _ _ => tag

/-- The name of the scope fits the buffer it is formatted in. -/
def fits : Scope → Bool
  | .hitraceScoped _ _ => true
  | .hitraceScopedEx _ _ _ _ => true
  | .hitraceMeterFmtScoped _ expansion => decide (expansion.length < varNameMaxSize)
  | .hitraceMeterFmtScopedEx _ _ _ expansion => decide (expansion.length < varNameMaxSize)

end Scope

variable {settings : MeterSettings} {pid : ProcId} {hiTraceId : HiTraceIdStruct}

/-- Only the level, the tag and the process of a marker are looked at. -/
theorem drops_raiseLevel (settings : SystemSettings) (marker : TraceMarker) :
    settings.drops (raiseLevel marker) =
      settings.drops
        (raiseLevel ⟨.begin, marker.level, marker.tag, 0, [], [], [], marker.pid⟩) := by
  rw [raiseLevel, raiseLevel]
  split <;> rfl

theorem raiseLevel_type (marker : TraceMarker) : (raiseLevel marker).type = marker.type := by
  rw [raiseLevel]
  split <;> rfl

theorem markerRecord_eq (request : MarkerRequest) :
    settings.markerRecord pid hiTraceId request =
      if settings.traces pid request.level request.tag then
        (request.marker pid).map fun marker => record hiTraceId (raiseLevel marker)
      else none := by
  rw [MeterSettings.markerRecord, MeterSettings.traces, MarkerRequest.marker]
  cases outputLevel request.level with
  | none => rfl
  | some output =>
      rw [Option.map_some]
      dsimp only
      rw [drops_raiseLevel]
      by_cases hdisabled : settings.isHitraceMeterDisabled = true
      · simp [hdisabled]
      · by_cases hmatches : settings.matchesTag request.tag = true
        · by_cases hdrops : settings.drops
              (raiseLevel ⟨.begin, output, request.tag, 0, [], [], [], pid⟩) = true
          · simp [hdrops]
          · simp [hdisabled, hmatches, hdrops]
        · simp [hdisabled, hmatches]

theorem marker_isSome {request : MarkerRequest}
    (htraces : settings.traces pid request.level request.tag = true) :
    ∃ marker, request.marker pid = some marker ∧ marker.type = request.type := by
  rw [MeterSettings.traces] at htraces
  rw [MarkerRequest.marker]
  cases hlevel : outputLevel request.level with
  | none =>
      rw [hlevel] at htraces
      cases htraces
  | some output => exact ⟨_, rfl, rfl⟩

theorem bracket_of_begin (number : Nat) {written : List UInt8}
    (hletter : bytesOf "B|" <+: written) : bracket (number, written) = some (.opening number) := by
  obtain ⟨rest, rfl⟩ := hletter
  rfl

theorem bracket_of_end (number : Nat) {written : List UInt8}
    (hletter : bytesOf "E|" <+: written) : bracket (number, written) = some (.closing number) := by
  obtain ⟨rest, rfl⟩ := hletter
  rfl

def brackets (number : Nat) (written : Option (List UInt8)) : List (Bracket Nat) :=
  (written.toList.map (number, ·)).filterMap bracket

theorem brackets_begin (number : Nat) (request : MarkerRequest)
    (htype : request.type = .begin) :
    brackets number (settings.markerRecord pid hiTraceId request) =
      if settings.traces pid request.level request.tag then [.opening number] else [] := by
  rw [markerRecord_eq]
  split
  · next htraces =>
      obtain ⟨marker, hmarker, hsame⟩ := marker_isSome htraces
      have hrecord : record hiTraceId (raiseLevel marker) =
          writeSyncBeginRecord hiTraceId (raiseLevel marker) := by
        rw [record, raiseLevel_type, hsame, htype]
      rw [hmarker, Option.map_some, hrecord, brackets]
      simp [bracket_of_begin number (begin_letter hiTraceId (raiseLevel marker))]
  · rfl

theorem brackets_end (number : Nat) (request : MarkerRequest)
    (htype : request.type = .end) :
    brackets number (settings.markerRecord pid hiTraceId request) =
      if settings.traces pid request.level request.tag then [.closing number] else [] := by
  rw [markerRecord_eq]
  split
  · next htraces =>
      obtain ⟨marker, hmarker, hsame⟩ := marker_isSome htraces
      have hrecord : record hiTraceId (raiseLevel marker) =
          writeSyncEndRecord (raiseLevel marker) := by
        rw [record, raiseLevel_type, hsame, htype]
      rw [hmarker, Option.map_some, hrecord, brackets]
      simp [bracket_of_end number (end_letter (raiseLevel marker))]
  · rfl

/-- A constructor that does not get to its formatting has no marker to write. -/
theorem traces_eq_false {tag : UInt64} (hskips : settings.skipsFormat tag = true)
    (level : Int) : settings.traces pid level tag = false := by
  rw [MeterSettings.skipsFormat, Bool.and_eq_true, Bool.or_eq_true, decide_eq_true_iff,
    UInt64.and_comm] at hskips
  rw [MeterSettings.traces]
  cases outputLevel level with
  | none => rfl
  | some output =>
      rcases hskips.1 with htag | hdisabled
      · simp [SystemSettings.matchesTag, htag]
      · simp [hdisabled]

theorem formatted_brackets (number : Nat) (level : Int) (tag : UInt64)
    (expansion : List UInt8) (request : List UInt8 → MarkerRequest)
    (hrequest : ∀ name, (request name).type = .begin ∧ (request name).level = level ∧
      (request name).tag = tag) :
    brackets number
        ((if settings.skipsFormat tag then none
          else (vsnprintfS expansion).map request).bind
            (settings.markerRecord pid hiTraceId)) =
      if settings.traces pid level tag && decide (expansion.length < varNameMaxSize) then
        [.opening number]
      else [] := by
  split
  · next hskips =>
      rw [traces_eq_false hskips]
      rfl
  · rw [vsnprintfS]
    split
    · next hlength =>
        obtain ⟨htype, hlevel, htag⟩ := hrequest (expansion.takeWhile (· ≠ 0))
        rw [Option.map_some, Option.bind_some, brackets_begin number _ htype, hlevel, htag,
          decide_eq_true hlength, Bool.and_true]
    · next hlength =>
        rw [decide_eq_false hlength, Bool.and_false]
        rfl

theorem begins_brackets (hiTraceId : HiTraceIdStruct) (number : Nat) (scope : Scope) :
    brackets number (scope.beginRecord settings pid hiTraceId) =
      if settings.traces pid scope.level scope.tag && scope.fits then [Bracket.opening number]
      else [] := by
  cases scope with
  | hitraceScoped tag name =>
      rw [Scope.fits, Bool.and_true]
      exact brackets_begin number (startTrace tag _) rfl
  | hitraceScopedEx level tag name customArgs =>
      rw [Scope.fits, Bool.and_true]
      exact brackets_begin number (startTraceEx level tag name customArgs) rfl
  | hitraceMeterFmtScoped tag expansion =>
      exact formatted_brackets number _ tag expansion _ fun _ => ⟨rfl, rfl, rfl⟩
  | hitraceMeterFmtScopedEx level tag customArgs expansion =>
      exact formatted_brackets number level tag expansion _ fun _ => ⟨rfl, rfl, rfl⟩

theorem ends_brackets (hiTraceId : HiTraceIdStruct) (number : Nat) (scope : Scope) :
    brackets number (scope.endRecord settings pid hiTraceId) =
      if settings.traces pid scope.level scope.tag then [.closing number] else [] := by
  cases scope with
  | hitraceScoped tag name => exact brackets_end number (finishTrace tag) rfl
  | hitraceScopedEx level tag name customArgs =>
      exact brackets_end number (finishTraceEx level tag) rfl
  | hitraceMeterFmtScoped tag expansion => exact brackets_end number (finishTrace tag) rfl
  | hitraceMeterFmtScopedEx level tag customArgs expansion =>
      exact brackets_end number (finishTraceEx level tag) rfl

/-! The word of a whole sequence. -/

theorem word_cons (number : Nat) (scope : Scope) (begun ended : HiTraceIdStruct)
    (inside rest : Scopes) :
    word settings pid number (.cons scope begun ended inside rest) =
      (if settings.traces pid scope.level scope.tag && scope.fits then [Bracket.opening number]
          else []) ++
        word settings pid (number + 1) inside ++
        (if settings.traces pid scope.level scope.tag then [Bracket.closing number]
          else []) ++
        word settings pid (number + 1 + inside.count) rest := by
  rw [word, Scopes.records, List.filterMap_append, List.filterMap_append,
    List.filterMap_append, ← begins_brackets begun number scope,
    ← ends_brackets ended number scope]
  rfl

/-- The name of every scope whose markers are written fits its buffer. -/
def Fitting (settings : MeterSettings) (pid : ProcId) (scopes : Scopes) : Prop :=
  ∀ scope ∈ scopes.all, settings.traces pid scope.level scope.tag = true →
    scope.fits = true

theorem fitting_cons {scope : Scope} {begun ended : HiTraceIdStruct}
    {inside rest : Scopes} :
    Fitting settings pid (.cons scope begun ended inside rest) ↔
      (settings.traces pid scope.level scope.tag = true → scope.fits = true) ∧
        Fitting settings pid inside ∧ Fitting settings pid rest := by
  simp only [Fitting, Scopes.all, List.cons_append, List.forall_mem_cons,
    List.forall_mem_append]

theorem balanced_of_fitting {scopes : Scopes} (hfitting : Fitting settings pid scopes)
    (number : Nat) : Bracket.Balanced (word settings pid number scopes) := by
  induction scopes generalizing number with
  | nil => exact .nil
  | cons scope begun ended inside rest hinside hrest =>
      obtain ⟨hfits, hin, hre⟩ := fitting_cons.mp hfitting
      rw [word_cons]
      cases htraces : settings.traces pid scope.level scope.tag with
      | false => simpa using (hinside hin _).append (hrest hre _)
      | true =>
          rw [hfits htraces]
          simpa using Bracket.Balanced.enclose number (hinside hin _) (hrest hre _)

theorem excess_word_cons (number : Nat) (scope : Scope) (begun ended : HiTraceIdStruct)
    (inside rest : Scopes) :
    Bracket.excess (word settings pid number (.cons scope begun ended inside rest)) =
      Bracket.excess (word settings pid (number + 1) inside) +
        Bracket.excess (word settings pid (number + 1 + inside.count) rest) -
        (if settings.traces pid scope.level scope.tag && !scope.fits then 1 else 0) := by
  rw [word_cons]
  cases settings.traces pid scope.level scope.tag with
  | false => simp
  | true =>
      cases scope.fits with
      | false =>
          simp
          omega
      | true =>
          simp
          omega

theorem excess_word_le (settings : MeterSettings) (pid : ProcId) (scopes : Scopes)
    (number : Nat) :
    Bracket.excess (word settings pid number scopes) ≤ 0 := by
  induction scopes generalizing number with
  | nil => exact Int.le_refl 0
  | cons scope begun ended inside rest hinside hrest =>
      rw [excess_word_cons]
      have hin := hinside (number + 1)
      have hre := hrest (number + 1 + inside.count)
      split <;> omega

theorem fitting_of_excess {scopes : Scopes} {number : Nat}
    (hexcess : Bracket.excess (word settings pid number scopes) = 0) :
    Fitting settings pid scopes := by
  induction scopes generalizing number with
  | nil =>
      intro scope hmem
      cases hmem
  | cons scope begun ended inside rest hinside hrest =>
      rw [excess_word_cons] at hexcess
      have hin := excess_word_le settings pid inside (number + 1)
      have hre := excess_word_le settings pid rest (number + 1 + inside.count)
      rw [fitting_cons]
      split at hexcess
      · omega
      · next hnot =>
          have hinsideZero : Bracket.excess (word settings pid (number + 1) inside) = 0 := by
            omega
          have hrestZero :
              Bracket.excess (word settings pid (number + 1 + inside.count) rest) = 0 := by
            omega
          refine ⟨?_, hinside hinsideZero, hrest hrestZero⟩
          intro htraces
          simpa [htraces] using hnot

end HitraceMeter

open HitraceMeter Library in
/-- The markers of a sequence of scopes balance exactly when each name that is formatted
for a marker of `trace_marker` fits its buffer. -/
theorem scopes_balanced_iff (settings : MeterSettings) (pid : AppTrace.ProcId)
    (scopes : Scopes) :
    Bracket.Balanced ((scopes.records settings pid 0).filterMap bracket) ↔
      ∀ scope ∈ scopes.all, settings.traces pid scope.level scope.tag = true →
        scope.fits = true :=
  ⟨fun hbalanced => fitting_of_excess hbalanced.excess_eq_zero,
    fun hfitting => balanced_of_fitting hfitting 0⟩

namespace HitraceMeter

def openSettings : MeterSettings where
  tagsProperty := hitraceTagApp
  levelThreshold := 0
  appTagMatchPid := -1
  markerFd := true
  isHitraceMeterDisabled := false
  appFd := false
  appTag := AppTrace.hitraceTagNotReady

def longScope : Scopes :=
  .cons (.hitraceMeterFmtScoped hitraceTagApp (List.replicate 400 97)) {} {} .nil .nil

end HitraceMeter

open HitraceMeter Library in
/-- The end marker is written without a begin marker. -/
theorem long_name_unbalanced :
    ¬ Bracket.Balanced
      ((longScope.records openSettings ⟨7, by decide⟩ 0).filterMap bracket) := by
  intro hbalanced
  have hfits := fitting_of_excess hbalanced.excess_eq_zero _ (List.mem_cons_self ..) (by decide)
  rw [Scope.fits, List.length_replicate] at hfits
  exact absurd hfits (by decide)

end Hitrace
