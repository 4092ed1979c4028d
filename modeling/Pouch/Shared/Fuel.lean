import Mathlib.Tactic.Basic

set_option autoImplicit false

namespace Fuel

variable {State Out : Type}

/-- A loop with fuel, of which every iteration either ends it or goes on in a smaller state. What it ends with
is within the size it began with. -/
structure Descends (run : Nat → State → Out) (size : State → Nat) (Within : Nat → Out → Prop) : Prop where
  exhausted : ∀ state, Within (size state) (run 0 state)
  iteration : ∀ state,
    (∃ out, Within (size state) out ∧ ∀ fuel, run (fuel + 1) state = out) ∨
      ∃ next, size next < size state ∧ ∀ fuel, run (fuel + 1) state = run fuel next
  grows : ∀ {small large : Nat} {out : Out}, small ≤ large → Within small out → Within large out

namespace Descends

variable {run : Nat → State → Out} {size : State → Nat} {Within : Nat → Out → Prop}

theorem enough (descends : Descends run size Within) (fuel more : Nat) (state : State) (enough : size state < fuel) :
    run (fuel + more) state = run fuel state := by
  induction fuel generalizing state with
  | zero => omega
  | succ fuel ih =>
    rw [Nat.add_right_comm]
    rcases descends.iteration state with ⟨out, _, ends⟩ | ⟨next, smaller, goesOn⟩
    · rw [ends, ends]
    · rw [goesOn, goesOn]
      exact ih next (by omega)

theorem within (descends : Descends run size Within) (fuel : Nat) (state : State) :
    Within (size state) (run fuel state) := by
  induction fuel generalizing state with
  | zero => exact descends.exhausted state
  | succ fuel ih =>
    rcases descends.iteration state with ⟨out, within, ends⟩ | ⟨next, smaller, goesOn⟩
    · rw [ends]
      exact within
    · rw [goesOn]
      exact descends.grows (Nat.le_of_lt smaller) (ih next)

end Descends

end Fuel
