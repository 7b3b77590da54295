import Mathlib.Data.List.Basic
import Mathlib.Order.WellFounded
import Mathlib.Tactic.Common

namespace Hitrace.Library

/-! Loops that are left from the middle of a turn. -/

namespace Loop

variable {σ τ : Type}

/-- A turn gives the next state, or the result with which the loop is left. -/
def run (turn : σ → Except τ σ) : Nat → σ → Option τ
  | 0, _ => none
  | turns + 1, state =>
      match turn state with
      | .error result => some result
      | .ok next => run turn turns next

variable {turn : σ → Except τ σ}

theorem run_succ_of_error {state : σ} {result : τ} (hturn : turn state = .error result)
    (turns : Nat) : run turn (turns + 1) state = some result := by
  rw [run, hturn]

theorem run_succ_of_ok {state next : σ} (hturn : turn state = .ok next) (turns : Nat) :
    run turn (turns + 1) state = run turn turns next := by
  rw [run, hturn]

/-- An invariant that holds in every state of a loop, and an order in which its states
go down: the loop is left, and with the result that the turn out of it gives. -/
theorem run_total {rel : σ → σ → Prop} (hrel : WellFounded rel) {invariant : σ → Prop}
    {post : τ → Prop}
    (hturn : ∀ state, invariant state →
      (∃ next, turn state = .ok next ∧ invariant next ∧ rel next state) ∨
        ∃ result, turn state = .error result ∧ post result)
    {start : σ} (hstart : invariant start) :
    ∃ turns result, run turn turns start = some result ∧ post result := by
  induction start using hrel.induction with
  | _ start ih =>
      rcases hturn start hstart with ⟨next, hnext, hinvariant, hdown⟩ | ⟨result, hleft, hpost⟩
      · obtain ⟨turns, result, hrun, hpost⟩ := ih next hdown hinvariant
        exact ⟨turns + 1, result, (run_succ_of_ok hnext turns).trans hrun, hpost⟩
      · exact ⟨1, result, run_succ_of_error hleft 0, hpost⟩

end Loop

end Hitrace.Library
