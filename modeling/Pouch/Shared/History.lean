import Mathlib.Data.List.Basic

set_option autoImplicit false

/-!
# Runs with a log

A system takes one operation at a time and reports events. A history is the state reached and
everything reported on the way, so that a property may speak of the past.
-/

structure History (State Event : Type) where
  state : State
  log : List Event

namespace History

variable {State Op Event : Type} (step : State → Op → State × List Event)

def record (history : History State Event) (op : Op) : History State Event :=
  { state := (step history.state op).1
    log := history.log ++ (step history.state op).2 }

def run (history : History State Event) (ops : List Op) : History State Event :=
  ops.foldl (record step) history

@[simp] theorem run_nil (history : History State Event) : run step history [] = history := rfl

@[simp] theorem run_cons (history : History State Event) (op : Op) (rest : List Op) :
    run step history (op :: rest) = run step (record step history op) rest := rfl

theorem run_append (history : History State Event) (first second : List Op) :
    run step history (first ++ second) = run step (run step history first) second :=
  List.foldl_append

theorem run_log (state : State) (log : List Event) (ops : List Op) :
    run step ⟨state, log⟩ ops = ⟨(run step ⟨state, []⟩ ops).state, log ++ (run step ⟨state, []⟩ ops).log⟩ := by
  induction ops generalizing state log with
  | nil => simp
  | cons op rest ih =>
    simp only [run_cons, record]
    rw [ih _ (log ++ _), ih _ ([] ++ _)]
    simp

/-- Every step of the run meets the condition in the history it is taken from. -/
def Meets (condition : History State Event → Op → Prop) : History State Event → List Op → Prop
  | _, [] => True
  | history, op :: rest => condition history op ∧ Meets condition (record step history op) rest

instance decidableMeets (condition : History State Event → Op → Prop)
    [∀ reached op, Decidable (condition reached op)] :
    (history : History State Event) → (ops : List Op) → Decidable (Meets step condition history ops)
  | _, [] => .isTrue trivial
  | history, op :: rest =>
    have := decidableMeets condition (record step history op) rest
    inferInstanceAs (Decidable (condition history op ∧ Meets step condition (record step history op) rest))

theorem meets_append (condition : History State Event → Op → Prop)
    (history : History State Event) (first second : List Op) :
    Meets step condition history (first ++ second) ↔
      Meets step condition history first ∧
        Meets step condition (run step history first) second := by
  induction first generalizing history with
  | nil => simp [Meets]
  | cons op rest ih => simp [Meets, ih, and_assoc]

theorem meets_of_forall (condition : History State Event → Op → Prop)
    (history : History State Event) (ops : List Op)
    (always : ∀ reached, ∀ op ∈ ops, condition reached op) :
    Meets step condition history ops := by
  induction ops generalizing history with
  | nil => trivial
  | cons op rest ih =>
    exact ⟨always history op (by simp),
      ih _ (fun reached other member => always reached other (by simp [member]))⟩

theorem meets_iff_forall (condition : Op → Prop) (history : History State Event) (ops : List Op) :
    Meets step (fun _ op => condition op) history ops ↔ ∀ op ∈ ops, condition op := by
  induction ops generalizing history with
  | nil => simp [Meets]
  | cons op rest ih => simp [Meets, ih]

theorem meets_iff_prefix (condition : History State Event → Op → Prop) (history : History State Event)
    (ops : List Op) :
    Meets step condition history ops ↔
      ∀ done op, done ++ [op] <+: ops → condition (run step history done) op := by
  induction ops generalizing history with
  | nil => simp [Meets]
  | cons first rest ih =>
    simp only [Meets, ih]
    constructor
    · rintro ⟨here, others⟩ done op before
      cases done with
      | nil =>
        obtain ⟨rfl, _⟩ := List.cons_prefix_cons.mp before
        exact here
      | cons earlier done =>
        obtain ⟨rfl, inside⟩ := List.cons_prefix_cons.mp before
        exact others done op inside
    · intro every
      refine ⟨every [] first (List.cons_prefix_cons.mpr ⟨rfl, List.nil_prefix⟩), ?_⟩
      intro done op inside
      exact every (first :: done) op (List.cons_prefix_cons.mpr ⟨rfl, inside⟩)

theorem forall_prefix_iff (holds : History State Event → Prop) (history : History State Event)
    (ops : List Op) (initial : holds history) :
    (∀ done, done <+: ops → holds (run step history done)) ↔
      Meets step (fun reached op => holds (record step reached op)) history ops := by
  induction ops generalizing history with
  | nil => simp [Meets, initial]
  | cons op rest ih =>
    constructor
    · intro every
      have next : holds (record step history op) := every [op] (by simp)
      refine ⟨next, (ih _ next).mp ?_⟩
      intro done before
      exact every (op :: done) (List.cons_prefix_cons.mpr ⟨rfl, before⟩)
    · rintro ⟨next, others⟩ done before
      rcases List.prefix_cons_iff.mp before with rfl | ⟨rest', rfl, inside⟩
      · exact initial
      · exact (ih _ next).mpr others rest' inside

theorem Meets.both {first second : History State Event → Op → Prop}
    {history : History State Event} {ops : List Op} (left : Meets step first history ops)
    (right : Meets step second history ops) :
    Meets step (fun reached op => first reached op ∧ second reached op) history ops := by
  induction ops generalizing history with
  | nil => trivial
  | cons op rest ih => exact ⟨⟨left.1, right.1⟩, ih left.2 right.2⟩

-- Two conditions that agree wherever an invariant holds are met by the same runs, if one of them
-- keeps the invariant.
theorem meets_iff_of_invariant (left right : History State Event → Op → Prop)
    (invariant : History State Event → Prop) (history : History State Event) (ops : List Op)
    (initial : invariant history)
    (agree : ∀ reached op, invariant reached → (left reached op ↔ right reached op))
    (preserved : ∀ reached op, right reached op → invariant reached →
      invariant (record step reached op)) :
    Meets step left history ops ↔ Meets step right history ops := by
  induction ops generalizing history with
  | nil => exact Iff.rfl
  | cons op rest ih =>
    have here := agree history op initial
    constructor
    · rintro ⟨met, others⟩
      have next := preserved history op (here.mp met) initial
      exact ⟨here.mp met, (ih _ next).mp others⟩
    · rintro ⟨met, others⟩
      have next := preserved history op met initial
      exact ⟨here.mpr met, (ih _ next).mpr others⟩

theorem meets_congr (condition left right : History State Event → Op → Prop)
    (invariant : History State Event → Prop) (history : History State Event) (ops : List Op)
    (initial : invariant history) (meets : Meets step condition history ops)
    (agree : ∀ reached op, condition reached op → invariant reached → (left reached op ↔ right reached op))
    (preserved : ∀ reached op, condition reached op → invariant reached →
      invariant (record step reached op)) :
    Meets step left history ops ↔ Meets step right history ops := by
  induction ops generalizing history with
  | nil => exact Iff.rfl
  | cons op rest ih =>
    have here := agree history op meets.1 initial
    have others := ih _ (preserved history op meets.1 initial) meets.2
    simp only [Meets, here, others]

/-- What every step that meets the condition preserves holds at the end of the run. -/
theorem run_invariant (condition : History State Event → Op → Prop)
    (invariant : History State Event → Prop) (history : History State Event) (ops : List Op)
    (initial : invariant history) (meets : Meets step condition history ops)
    (preserved : ∀ reached op, condition reached op → invariant reached →
      invariant (record step reached op)) :
    invariant (run step history ops) := by
  induction ops generalizing history with
  | nil => exact initial
  | cons op rest ih =>
    exact ih _ (preserved history op meets.1 initial) meets.2

theorem log_prefix (history : History State Event) (ops : List Op) :
    history.log <+: (run step history ops).log := by
  induction ops generalizing history with
  | nil => exact List.prefix_refl _
  | cons op rest ih => exact (List.prefix_append _ _).trans (ih (record step history op))

theorem log_forall_iff (good : Event → Prop) (condition : History State Event → Op → Prop)
    (invariant : State → Prop) (history : History State Event) (ops : List Op)
    (initial : invariant history.state)
    (agree : ∀ reached op, invariant reached.state →
      ((∀ event ∈ (step reached.state op).2, good event) ↔ condition reached op))
    (preserved : ∀ state op, invariant state → invariant (step state op).1) :
    (∀ event ∈ (run step history ops).log, good event) ↔
      (∀ event ∈ history.log, good event) ∧ Meets step condition history ops := by
  induction ops generalizing history with
  | nil => simp [Meets]
  | cons op rest ih =>
    rw [run_cons, ih (record step history op) (preserved history.state op initial)]
    simp only [record, List.mem_append, or_imp, forall_and, Meets, agree history op initial, and_assoc]

-- What was reported after the last mark.
def since (mark : Event → Bool) (log : List Event) : List Event :=
  (log.reverse.takeWhile fun event => !mark event).reverse

theorem since_mark (mark : Event → Bool) (log : List Event) (event : Event) (marks : mark event = true) :
    since mark (log ++ [event]) = [] := by
  simp [since, marks]

theorem since_other (mark : Event → Bool) (log : List Event) (event : Event) (other : mark event = false) :
    since mark (log ++ [event]) = since mark log ++ [event] := by
  simp [since, other]

theorem since_others (mark : Event → Bool) (log more : List Event)
    (others : ∀ event ∈ more, mark event = false) : since mark (log ++ more) = since mark log ++ more := by
  induction more generalizing log with
  | nil => simp
  | cons event rest ih =>
    have first := since_other mark log event (others event List.mem_cons_self)
    have later := ih (log ++ [event]) fun other member => others other (List.mem_cons_of_mem _ member)
    rw [List.append_cons, later, first, ← List.append_cons]

-- What was reported up to the last mark.
def upTo (mark : Event → Bool) (log : List Event) : List Event :=
  (log.reverse.dropWhile fun event => !mark event).reverse

theorem upTo_other (mark : Event → Bool) (log : List Event) (event : Event) (other : mark event = false) :
    upTo mark (log ++ [event]) = upTo mark log := by
  simp [upTo, other]

theorem upTo_append_since (mark : Event → Bool) (log : List Event) : upTo mark log ++ since mark log = log := by
  rw [upTo, since, ← List.reverse_append, List.takeWhile_append_dropWhile, List.reverse_reverse]

theorem split_found {log : List Event} {found : Event → Bool} {index : Nat}
    (first : log.findIdx? found = some index) :
    ∃ event, found event = true ∧ log = log.take index ++ event :: log.drop (index + 1) := by
  obtain ⟨bound, isFound, _⟩ := List.findIdx?_eq_some_iff_getElem.mp first
  exact ⟨log[index], isFound, by rw [List.getElem_cons_drop, List.take_append_drop]⟩

end History
