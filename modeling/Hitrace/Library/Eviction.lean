import Mathlib.Data.List.Nodup
import Mathlib.Data.List.Perm.Basic
import Mathlib.Algebra.Ring.Nat
import Mathlib.Tactic.Common

namespace Hitrace.Library

universe u

/-! Eviction from a list, oldest item first.  Of the marked items the newest `capacity`
are spared: they wait in a queue whose head leaves when it holds one too many. -/

section Prefixes

variable {α : Type u}

/-- The shortest part at the front of `items` for which `reached` holds, or all of
them if there is none. -/
structure FirstPrefix (reached : List α → Prop) (items scanned : List α) : Prop where
  front : scanned <+: items
  stops : reached scanned ∨ scanned = items
  shortest : ∀ shorter, shorter <+: scanned → shorter ≠ scanned → ¬ reached shorter

theorem FirstPrefix.unique {reached : List α → Prop} {items scanned other : List α}
    (hscanned : FirstPrefix reached items scanned)
    (hother : FirstPrefix reached items other) : scanned = other := by
  rcases List.prefix_or_prefix_of_prefix hscanned.front hother.front with hle | hle
  · by_contra hne
    rcases hscanned.stops with hreached | hall
    · exact hother.shortest scanned hle hne hreached
    · rw [hall] at hle hne
      exact hne (hle.eq_of_length_le hother.front.length_le)
  · by_contra hne
    rcases hother.stops with hreached | hall
    · exact hscanned.shortest other hle (Ne.symm hne) hreached
    · rw [hall] at hle hne
      exact hne (hle.eq_of_length_le hscanned.front.length_le).symm

theorem FirstPrefix.not_reached_take {reached : List α → Prop} {items scanned : List α}
    (hscanned : FirstPrefix reached items scanned) {count : Nat}
    (hlt : count < scanned.length) : ¬ reached (items.take count) := by
  obtain ⟨unread, rfl⟩ := hscanned.front
  rw [List.take_append_of_le_length (le_of_lt hlt)]
  refine hscanned.shortest _ (List.take_prefix _ _) ?_
  intro hall
  have hlength := congrArg List.length hall
  rw [List.length_take] at hlength
  omega

theorem FirstPrefix.of_nil (reached : List α → Prop) : FirstPrefix reached [] [] where
  front := List.prefix_rfl
  stops := Or.inr rfl
  shortest := fun _ hshorter hne => absurd (List.prefix_nil.mp hshorter) hne

theorem FirstPrefix.nil {reached : List α → Prop} (hreached : reached []) (items : List α) :
    FirstPrefix reached items [] where
  front := List.nil_prefix
  stops := Or.inl hreached
  shortest := (FirstPrefix.of_nil reached).shortest

theorem FirstPrefix.cons {reached : List α → Prop} {item : α} {items scanned : List α}
    (hnot : ¬ reached [])
    (hscanned : FirstPrefix (fun front => reached (item :: front)) items scanned) :
    FirstPrefix reached (item :: items) (item :: scanned) where
  front := List.cons_prefix_cons.mpr ⟨rfl, hscanned.front⟩
  stops := hscanned.stops.imp_right fun hall => by rw [hall]
  shortest := by
    intro shorter hshorter hne
    rcases List.prefix_cons_iff.mp hshorter with rfl | ⟨front, rfl, hfront⟩
    · exact hnot
    · exact hscanned.shortest front hfront fun heq => hne (by rw [heq])

theorem FirstPrefix.exists (reached : List α → Prop) (items : List α) :
    ∃ scanned, FirstPrefix reached items scanned := by
  induction items generalizing reached with
  | nil => exact ⟨[], FirstPrefix.of_nil reached⟩
  | cons item rest ih =>
      by_cases hreached : reached []
      · exact ⟨[], FirstPrefix.nil hreached _⟩
      · obtain ⟨scanned, hscanned⟩ := ih fun front => reached (item :: front)
        exact ⟨item :: scanned, hscanned.cons hreached⟩

/-- A part that was kept is kept again. -/
theorem FirstPrefix.of_front {reached : List α → Prop} {items scanned front : List α}
    (hscanned : FirstPrefix reached items scanned) (hfront : front <+: scanned) :
    FirstPrefix reached front front where
  front := List.prefix_rfl
  stops := Or.inr rfl
  shortest := by
    intro shorter hshorter hne
    refine hscanned.shortest shorter (hshorter.trans hfront) ?_
    rintro rfl
    exact hne (hshorter.eq_of_length_le hfront.length_le)

/-- What `drops` takes out of a list without repetitions is its front. -/
theorem filter_not_eq_drop {items : List α} (hnodup : items.Nodup) {count : Nat}
    {drops : α → Bool} (hdrops : ∀ item ∈ items, drops item = true ↔ item ∈ items.take count) :
    items.filter (fun item => !drops item) = items.drop count := by
  have hfront : (items.take count).filter (fun item => !drops item) = [] := by
    apply List.filter_eq_nil_iff.mpr
    intro item hmem
    rw [(hdrops item (List.mem_of_mem_take hmem)).mpr hmem]
    exact Bool.false_ne_true
  have hback : (items.drop count).filter (fun item => !drops item) = items.drop count := by
    apply List.filter_eq_self.mpr
    intro item hmem
    have hnot : item ∉ items.take count := fun htake =>
      List.disjoint_take_drop hnodup (le_refl count) htake hmem
    cases hdrop : drops item with
    | false => rfl
    | true => exact absurd ((hdrops item (List.mem_of_mem_drop hmem)).mp hdrop) hnot
  calc items.filter (fun item => !drops item)
      = (items.take count ++ items.drop count).filter (fun item => !drops item) := by
        rw [List.take_append_drop]
    _ = items.drop count := by rw [List.filter_append, hfront, hback, List.nil_append]

end Prefixes

namespace Eviction

variable {α : Type u} (marked : α → Bool) (capacity : Nat)

def plain (items : List α) : List α :=
  items.filter fun item => !marked item

def surplus (items : List α) : Nat :=
  (items.filter marked).length - capacity

def evicted (items : List α) : List α :=
  plain marked items ++ (items.filter marked).take (surplus marked capacity items)

/-- The marked items that are spared. -/
def queue (items : List α) : List α :=
  (items.filter marked).drop (surplus marked capacity items)

variable {marked capacity} {items : List α} {item : α}

theorem length_evicted :
    (evicted marked capacity items).length =
      (plain marked items).length + surplus marked capacity items := by
  rw [evicted, List.length_append, List.length_take, surplus]
  omega

theorem mem_of_mem_evicted (hmem : item ∈ evicted marked capacity items) :
    item ∈ items := by
  rcases List.mem_append.mp hmem with hplain | hmarked
  · exact List.mem_of_mem_filter hplain
  · exact List.mem_of_mem_filter (List.mem_of_mem_take hmarked)

theorem mem_evicted_of_not_marked (hmark : marked item = false) :
    item ∈ evicted marked capacity items ↔ item ∈ plain marked items := by
  refine List.mem_append.trans (or_iff_left ?_)
  intro hmarked
  have htrue := List.of_mem_filter (List.mem_of_mem_take hmarked)
  rw [hmark] at htrue
  cases htrue

theorem mem_evicted_of_marked (hmark : marked item = true) :
    item ∈ evicted marked capacity items ↔
      item ∈ (items.filter marked).take (surplus marked capacity items) := by
  refine List.mem_append.trans (or_iff_right ?_)
  intro hplain
  have hfalse := List.of_mem_filter hplain
  simp [hmark] at hfalse

/-! One more item, at the end. -/

theorem concat_plain (hmark : marked item = false) :
    (evicted marked capacity (items ++ [item])).Perm
        (evicted marked capacity items ++ [item]) ∧
      queue marked capacity (items ++ [item]) = queue marked capacity items := by
  have hmarked : (items ++ [item]).filter marked = items.filter marked := by
    simp [hmark]
  have hplain : plain marked (items ++ [item]) = plain marked items ++ [item] := by
    simp [plain, hmark]
  refine ⟨?_, ?_⟩
  · rw [evicted, evicted, surplus, hmarked, hplain, ← surplus, List.append_assoc,
      List.append_assoc]
    exact List.Perm.append_left _ List.perm_append_comm
  · rw [queue, surplus, hmarked, ← surplus, queue]

theorem concat_marked (items : List α) (hmark : marked item = true) :
    (items ++ [item]).filter marked = items.filter marked ++ [item] ∧
      plain marked (items ++ [item]) = plain marked items := by
  simp [plain, hmark]

theorem concat_room (hmark : marked item = true)
    (hroom : (queue marked capacity items).length + 1 ≤ capacity) :
    evicted marked capacity (items ++ [item]) = evicted marked capacity items ∧
      queue marked capacity (items ++ [item]) = queue marked capacity items ++ [item] := by
  obtain ⟨hmarked, hplain⟩ := concat_marked items hmark
  have hfew : (items.filter marked).length + 1 ≤ capacity := by
    rw [queue, List.length_drop, surplus] at hroom
    omega
  have hnone : surplus marked capacity items = 0 := by
    rw [surplus]
    omega
  have hnext : surplus marked capacity (items ++ [item]) = 0 := by
    rw [surplus, hmarked, List.length_append, List.length_singleton]
    omega
  rw [evicted, evicted, queue, queue, hnone, hnext, hmarked, hplain]
  exact ⟨rfl, rfl⟩

theorem concat_full (hmark : marked item = true)
    (hfull : ¬ (queue marked capacity items).length + 1 ≤ capacity) :
    (evicted marked capacity (items ++ [item])).Perm
        (evicted marked capacity items ++ [(queue marked capacity items).headD item]) ∧
      queue marked capacity (items ++ [item]) =
        (queue marked capacity items ++ [item]).tail := by
  obtain ⟨hmarked, hplain⟩ := concat_marked items hmark
  have hmany : capacity ≤ (items.filter marked).length := by
    rw [queue, List.length_drop, surplus] at hfull
    omega
  have hnext : surplus marked capacity (items ++ [item]) =
      surplus marked capacity items + 1 := by
    rw [surplus, surplus, hmarked, List.length_append, List.length_singleton]
    omega
  have hle : surplus marked capacity items ≤ (items.filter marked).length := by
    rw [surplus]
    omega
  have hqueue : queue marked capacity items ++ [item] =
      (items.filter marked ++ [item]).drop (surplus marked capacity items) := by
    rw [queue, List.drop_append_of_le_length hle]
  have hhead : (queue marked capacity items ++ [item]).head? =
      some ((queue marked capacity items).headD item) := by
    cases queue marked capacity items <;> rfl
  refine ⟨?_, ?_⟩
  · have htake : (items.filter marked ++ [item]).take (surplus marked capacity items + 1) =
        (items.filter marked).take (surplus marked capacity items) ++
          [(queue marked capacity items).headD item] := by
      rw [List.take_add_one, List.take_append_of_le_length hle, ← List.head?_drop,
        ← hqueue, hhead]
      rfl
    rw [evicted, evicted, hnext, hmarked, hplain, htake, List.append_assoc]
  · rw [queue, hnext, hmarked, hqueue, List.tail_drop]

/-! What the eviction of a front part leaves of a list without repetitions. -/

section Remaining

variable {scanned : List α} {drops : α → Bool}

theorem remaining_plain (hnodup : items.Nodup) (hfront : scanned <+: items)
    (hdrops : ∀ item ∈ items, drops item = true ↔ item ∈ evicted marked capacity scanned) :
    plain marked (items.filter fun item => !drops item) =
      (plain marked items).drop (plain marked scanned).length := by
  have hshorter : plain marked scanned <+: plain marked items := hfront.filter _
  rw [plain, List.filter_comm]
  apply filter_not_eq_drop (hnodup.filter _)
  intro item hmem
  obtain ⟨hitem, hmark⟩ := List.mem_filter.mp hmem
  have hmark : marked item = false := by
    cases hvalue : marked item with
    | false => rfl
    | true => simp [hvalue] at hmark
  rw [hdrops item hitem, mem_evicted_of_not_marked hmark, ← plain,
    ← List.prefix_iff_eq_take.mp hshorter]

theorem remaining_marked (hnodup : items.Nodup) (hfront : scanned <+: items)
    (hdrops : ∀ item ∈ items, drops item = true ↔ item ∈ evicted marked capacity scanned) :
    (items.filter fun item => !drops item).filter marked =
      (items.filter marked).drop (surplus marked capacity scanned) := by
  obtain ⟨unread, rfl⟩ := hfront
  have hle : surplus marked capacity scanned ≤ (scanned.filter marked).length := by
    rw [surplus]
    omega
  rw [List.filter_comm]
  apply filter_not_eq_drop (hnodup.filter _)
  intro item hmem
  obtain ⟨hitem, hmark⟩ := List.mem_filter.mp hmem
  rw [hdrops item hitem, mem_evicted_of_marked hmark, List.filter_append,
    List.take_append_of_le_length hle]

end Remaining

/-! The number of evicted items grows with the list, by at most one with each item. -/

theorem length_evicted_concat_le (items : List α) (item : α) :
    (evicted marked capacity (items ++ [item])).length ≤
      (evicted marked capacity items).length + 1 := by
  cases hmark : marked item with
  | false =>
      rw [(concat_plain hmark).1.length_eq, List.length_append, List.length_singleton]
  | true =>
      by_cases hroom : (queue marked capacity items).length + 1 ≤ capacity
      · rw [(concat_room hmark hroom).1]
        omega
      · rw [(concat_full hmark hroom).1.length_eq, List.length_append, List.length_singleton]

theorem length_evicted_mono {scanned : List α} (hfront : scanned <+: items) :
    (evicted marked capacity scanned).length ≤ (evicted marked capacity items).length := by
  have hplain : (plain marked scanned).length ≤ (plain marked items).length :=
    (hfront.filter _).length_le
  have hmarked := (hfront.filter marked).length_le
  rw [length_evicted, length_evicted, surplus, surplus]
  omega

/-- As many items are evicted as are needed, if there are so many. -/
theorem length_evicted_first {need : Nat} {scanned : List α}
    (hfirst : FirstPrefix (fun front => need ≤ (evicted marked capacity front).length)
      items scanned) :
    (evicted marked capacity scanned).length =
      min need (evicted marked capacity items).length := by
  have hle : (evicted marked capacity scanned).length ≤
      (evicted marked capacity items).length := length_evicted_mono hfirst.front
  have hupper : (evicted marked capacity scanned).length ≤ need := by
    rcases List.eq_nil_or_concat scanned with rfl | ⟨front, last, rfl⟩
    · have hnil : (evicted marked capacity []).length = 0 := by
        simp [length_evicted, plain, surplus]
      omega
    · rw [List.concat_eq_append] at hfirst ⊢
      have hshort := hfirst.shortest front (List.prefix_append _ _) (by simp)
      have hstep : (evicted marked capacity (front ++ [last])).length ≤
          (evicted marked capacity front).length + 1 := length_evicted_concat_le front last
      omega
  rcases hfirst.stops with hreached | rfl
  · omega
  · omega

end Eviction

end Hitrace.Library
