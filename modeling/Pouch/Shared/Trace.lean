import Pouch.Shared.History

set_option autoImplicit false

/-!
# Operations as traces of small steps

An operation of a system reports the events of the small steps it takes. What every small step
preserves is preserved by every operation, and so by every run.
-/

inductive Trace {State Event : Type} (small : State → Event → State → Prop) :
    State → List Event → State → Prop
  | nil (state : State) : Trace small state [] state
  | cons {first second third : State} {event : Event} {events : List Event}
      (head : small first event second) (tail : Trace small second events third) :
      Trace small first (event :: events) third

namespace Trace

variable {State Event : Type} {small : State → Event → State → Prop} {first second third : State}
  {event : Event} {events more : List Event}

theorem single (step : small first event second) : Trace small first [event] second :=
  .cons step (.nil second)

theorem append (left : Trace small first events second) (right : Trace small second more third) :
    Trace small first (events ++ more) third := by
  induction left with
  | nil => exact right
  | cons head _ ih => exact .cons head (ih right)

theorem snoc (left : Trace small first events second) (step : small second event third) :
    Trace small first (events ++ [event]) third :=
  left.append (single step)

theorem invariant (holds : State → List Event → Prop) (allowed : Event → Prop)
    (preserved : ∀ before event after log, small before event after → allowed event →
      holds before log → holds after (log ++ [event]))
    (trace : Trace small first events second) (allows : ∀ event ∈ events, allowed event)
    (log : List Event) (initial : holds first log) : holds second (log ++ events) := by
  induction trace generalizing log with
  | nil => simpa using initial
  | @cons before middle after event rest head _ ih =>
    have next := preserved before event middle log head (allows event (by simp)) initial
    rw [← List.singleton_append, ← List.append_assoc]
    exact ih (fun other member => allows other (by simp [member])) _ next

end Trace

namespace History

variable {State Op Event : Type}

/-- A system whose operations are traces of small steps, as long as it is well formed. -/
structure Traced (step : State → Op → State × List Event) (small : State → Event → State → Prop)
    (formed : State → Prop) : Prop where
  trace : ∀ state op, formed state → Trace small state (step state op).2 (step state op).1
  formed : ∀ state op, formed state → formed (step state op).1

variable {step : State → Op → State × List Event} {small : State → Event → State → Prop}
  {formed : State → Prop}

/-- What every small step with an allowed event preserves holds at the end of a run whose operations
report allowed events only. -/
theorem Traced.run_invariant (traced : Traced step small formed)
    (condition : History State Event → Op → Prop) (allowed : Event → Prop)
    (holds : State → List Event → Prop) (history : History State Event) (ops : List Op)
    (initiallyFormed : formed history.state) (initial : holds history.state history.log)
    (meets : Meets step condition history ops)
    (allows : ∀ reached op, formed reached.state → condition reached op →
      ∀ event ∈ (step reached.state op).2, allowed event)
    (preserved : ∀ before event after log, small before event after → allowed event →
      holds before log → holds after (log ++ [event])) :
    holds (run step history ops).state (run step history ops).log := by
  have both := History.run_invariant step condition
    (fun reached => formed reached.state ∧ holds reached.state reached.log) history ops
    ⟨initiallyFormed, initial⟩ meets ?_
  · exact both.2
  · rintro reached op met ⟨isFormed, before⟩
    refine ⟨traced.formed reached.state op isFormed, ?_⟩
    exact (traced.trace reached.state op isFormed).invariant holds allowed preserved
      (allows reached op isFormed met) reached.log before

end History
