import Mathlib.Data.List.Basic
import Mathlib.Data.Nat.Init

set_option autoImplicit false

/-!
# Reassembly through a bounded buffer

A stream consists of a preamble and a number of frames. A receiver collects it in a buffer of
bounded capacity and, each time it has filled the buffer up, hands on at most one frame. Only
positions in the stream matter here: `bound 0` is the end of the preamble and `bound k` the end of
the `k`-th frame.
-/

namespace Reassembly

section Slices

variable {α : Type}

def slice (stream : List α) (start stop : Nat) : List α := (stream.drop start).take (stop - start)

variable (stream : List α) {start middle stop : Nat}

theorem slice_length (start stop : Nat) (within : stop ≤ stream.length) :
    (slice stream start stop).length = stop - start := by
  simp only [slice, List.length_take, List.length_drop]
  omega

@[simp] theorem slice_self : slice stream start start = [] := by simp [slice]

theorem slice_zero : slice stream 0 stop = stream.take stop := by simp [slice]

theorem slice_append (first : start ≤ middle) (second : middle ≤ stop) :
    slice stream start middle ++ slice stream middle stop = slice stream start stop := by
  have split : stop - start = (middle - start) + (stop - middle) := by omega
  have shift : start + (middle - start) = middle := by omega
  simp only [slice]
  rw [split, List.take_add, List.drop_drop, shift]

theorem slice_take (count : Nat) :
    (slice stream start stop).take count = slice stream start (min stop (start + count)) := by
  simp only [slice, List.take_take]
  congr 1
  omega

theorem slice_drop (count : Nat) :
    (slice stream start stop).drop count = slice stream (start + count) stop := by
  simp only [slice, List.drop_take, List.drop_drop]
  congr 1
  omega

theorem flatten_take_succ (parts : List (List α)) (index : Nat) (within : index < parts.length) :
    (parts.take (index + 1)).flatten.length =
      (parts.take index).flatten.length + parts[index].length := by
  rw [List.take_succ_eq_append_getElem within, List.flatten_append, List.length_append,
    List.flatten_singleton]

theorem slice_flatten (parts : List (List α)) (index : Nat) (within : index < parts.length) :
    slice parts.flatten (parts.take index).flatten.length (parts.take (index + 1)).flatten.length =
      parts[index] := by
  have split : parts.flatten = (parts.take index).flatten ++ (parts.drop index).flatten := by
    rw [← List.flatten_append, List.take_append_drop]
  rw [flatten_take_succ parts index within, slice, Nat.add_sub_cancel_left, split, List.drop_left,
    List.drop_eq_getElem_cons within, List.flatten_cons, List.take_left]

end Slices

structure Framing where
  capacity : Nat
  count : Nat
  bound : Nat → Nat
  positive : 0 < capacity
  grows : ∀ index < count, bound index < bound (index + 1)
  small : ∀ index < count, bound (index + 1) ≤ bound index + capacity

namespace Framing

variable (framing : Framing)

theorem bound_mono {low high : Nat} (ordered : low ≤ high) (within : high ≤ framing.count) :
    framing.bound low ≤ framing.bound high := by
  induction high, ordered using Nat.le_induction with
  | base => exact Nat.le_refl _
  | succ high _ ih =>
    have step := framing.grows high within
    have below := ih (Nat.le_of_lt within)
    omega

theorem lt_of_bound_lt {low high : Nat} (ordered : framing.bound low < framing.bound high)
    (within : low ≤ framing.count) : low < high := by
  by_contra above
  have reversed := framing.bound_mono (Nat.not_lt.mp above) within
  omega

def handOver (handed position : Nat) : Nat :=
  if handed < framing.count ∧ framing.bound (handed + 1) ≤ position then handed + 1 else handed

def filled (target handed : Nat) : Nat := min target (framing.bound handed + framing.capacity)

structure Within (handed position : Nat) : Prop where
  counted : handed ≤ framing.count
  reached : framing.bound handed ≤ position
  room : position < framing.bound handed + framing.capacity

variable {framing} {target handed position final : Nat}

theorem Within.handOver (start : framing.Within handed position) (arrived : position ≤ target)
    (ending : target ≤ framing.bound framing.count) :
    framing.Within (framing.handOver handed (framing.filled target handed))
      (framing.filled target handed) := by
  obtain ⟨counted, reached, room⟩ := start
  simp only [Framing.handOver]
  split_ifs with ready
  · have step := framing.grows handed ready.1
    have filled : framing.filled target handed ≤ framing.bound handed + framing.capacity :=
      Nat.min_le_right _ _
    exact ⟨ready.1, ready.2, by omega⟩
  · refine ⟨counted, by simp only [filled]; omega, ?_⟩
    rcases Nat.lt_or_eq_of_le counted with more | rfl
    · have next : framing.filled target handed < framing.bound (handed + 1) := by
        by_contra arrived
        exact ready ⟨more, Nat.not_lt.mp arrived⟩
      have small := framing.small handed more
      omega
    · have positive := framing.positive
      simp only [filled]
      omega

variable (framing) in
/-- The receiver takes in the stream up to `target`, one refill after the other. -/
inductive Refills (target : Nat) : Nat → Nat → Nat → Prop where
  | done (handed : Nat) : Refills target handed target handed
  | turn (handed position final : Nat) (more : position < target)
      (rest : Refills target (framing.handOver handed (framing.filled target handed))
        (framing.filled target handed) final) :
      Refills target handed position final

theorem Refills.final_of_target (refills : framing.Refills target handed target final) :
    final = handed := by
  cases refills with
  | done => rfl
  | turn _ _ _ more => exact absurd more (Nat.lt_irrefl _)

theorem Refills.within (refills : framing.Refills target handed position final)
    (start : framing.Within handed position) (arrived : position ≤ target)
    (ending : target ≤ framing.bound framing.count) : framing.Within final target := by
  induction refills with
  | done => exact start
  | turn handed position final more _ ih =>
    exact ih (start.handOver arrived ending) (Nat.min_le_left _ _)

theorem le_handOver_iff (within : handed ≤ framing.count) (reached : framing.bound handed ≤ target)
    (index : Nat) (counted : index ≤ framing.count) :
    index ≤ framing.handOver handed target ↔
      framing.bound index ≤ target ∧ index ≤ handed + 1 := by
  simp only [Framing.handOver]
  split_ifs with ready
  · refine ⟨fun below => ⟨?_, below⟩, fun both => both.2⟩
    exact Nat.le_trans (framing.bound_mono below ready.1) ready.2
  · constructor
    · intro below
      have before := framing.bound_mono below within
      omega
    · rintro ⟨arrived, next⟩
      by_contra beyond
      obtain rfl : index = handed + 1 := by omega
      exact ready ⟨counted, arrived⟩

-- Which frames have been handed on: besides the next one, those that left more than a full buffer
-- behind the frame before them.
theorem Refills.le_final_iff (refills : framing.Refills target handed position final)
    (start : framing.Within handed position) (more : position < target)
    (ending : target ≤ framing.bound framing.count) (index : Nat)
    (counted : index ≤ framing.count) :
    index ≤ final ↔ framing.bound index ≤ target ∧ (index ≤ handed + 1 ∨
      2 ≤ index ∧ framing.bound (index - 2) + framing.capacity < target) := by
  induction refills with
  | done => exact absurd more (Nat.lt_irrefl _)
  | turn handed position final _ rest ih =>
    have next := start.handOver (Nat.le_of_lt more) ending
    by_cases last : target ≤ framing.bound handed + framing.capacity
    · have full : framing.filled target handed = target := Nat.min_eq_left last
      rw [full] at rest
      have reached : framing.bound handed ≤ target :=
        Nat.le_trans start.reached (Nat.le_of_lt more)
      rw [rest.final_of_target, le_handOver_iff start.counted reached index counted]
      refine and_congr_right fun _ => ⟨Or.inl, ?_⟩
      rintro (near | ⟨two, beyond⟩)
      · exact near
      · have before : index - 2 < handed := framing.lt_of_bound_lt (by omega) (by omega)
        omega
    · have full : framing.filled target handed = framing.bound handed + framing.capacity :=
        Nat.min_eq_right (by omega)
      have notLast : handed < framing.count := framing.lt_of_bound_lt (by omega) start.counted
      have complete : framing.handOver handed (framing.filled target handed) = handed + 1 := by
        rw [full]
        exact if_pos ⟨notLast, framing.small handed notLast⟩
      rw [complete] at next ih
      rw [ih next (by omega)]
      refine and_congr_right fun _ => ⟨?_, ?_⟩
      · rintro (near | far)
        · by_cases new : index = handed + 2
          · subst new
            exact .inr ⟨by omega, by simpa using Nat.not_le.mp last⟩
          · exact .inl (by omega)
        · exact .inr far
      · rintro (near | far)
        · exact .inl (by omega)
        · exact .inr far

variable (framing) in
-- The preamble is looked for in the first buffer only; `none` means it has not been seen.
inductive Receives (target : Nat) : Option Nat → Nat → Option Nat → Prop where
  | waiting (position : Nat) (short : target < framing.bound 0) :
      Receives target none position none
  | preamble (position final : Nat) (seen : framing.bound 0 ≤ target)
      (rest : framing.Refills target (framing.handOver 0 (min target framing.capacity))
        (min target framing.capacity) final) :
      Receives target none position (some final)
  | frames (handed position final : Nat) (rest : framing.Refills target handed position final) :
      Receives target (some handed) position (some final)

variable (framing) in
-- The state between two arrivals. An empty preamble still takes a first byte to be noticed.
def Between : Option Nat → Nat → Prop
  | none, position => position < max 1 (framing.bound 0)
  | some handed, position => framing.Within handed position ∧ 0 < position

theorem preamble_within (fits : framing.bound 0 ≤ framing.capacity) (nonempty : 0 < target)
    (seen : framing.bound 0 ≤ target) (ending : target ≤ framing.bound framing.count) :
    framing.Within (framing.handOver 0 (min target framing.capacity))
      (min target framing.capacity) := by
  have positive := framing.positive
  simp only [Framing.handOver]
  split_ifs with ready
  · have step := framing.grows 0 ready.1
    exact ⟨ready.1, ready.2, by omega⟩
  · refine ⟨Nat.zero_le _, by omega, ?_⟩
    by_cases empty : framing.count = 0
    · rw [empty] at ending
      omega
    · have more : 0 < framing.count := Nat.pos_of_ne_zero empty
      have small := framing.small 0 more
      have notReady : min target framing.capacity < framing.bound (0 + 1) := by
        by_contra arrived
        exact ready ⟨more, Nat.not_lt.mp arrived⟩
      omega

theorem Receives.between {before after : Option Nat}
    (receives : framing.Receives target before position after)
    (fits : framing.bound 0 ≤ framing.capacity) (start : framing.Between before position)
    (more : position < target) (ending : target ≤ framing.bound framing.count) :
    framing.Between after target := by
  cases receives with
  | waiting _ short => exact Nat.lt_of_lt_of_le short (Nat.le_max_right _ _)
  | preamble _ final seen rest =>
    have within := preamble_within fits (by omega) seen ending
    exact ⟨rest.within within (Nat.min_le_left _ _) ending, by omega⟩
  | frames handed _ final rest => exact ⟨rest.within start.1 (Nat.le_of_lt more) ending, by omega⟩

theorem Receives.le_iff {before after : Option Nat}
    (receives : framing.Receives target before position after)
    (fits : framing.bound 0 ≤ framing.capacity) (start : framing.Between before position)
    (more : position < target) (ending : target ≤ framing.bound framing.count) (index : Nat)
    (first : 1 ≤ index) (counted : index ≤ framing.count) :
    index ≤ after.getD 0 ↔ framing.bound index ≤ target ∧ (index ≤ before.getD 0 + 1 ∨
      (2 ≤ index ∧ framing.bound (index - 2) + framing.capacity < target) ∨
      (index = 2 ∧ position < max 1 (framing.bound 0) ∧ framing.bound 1 ≤ framing.capacity ∧
        framing.capacity < target)) := by
  have beyond := framing.bound_mono (Nat.zero_le index) counted
  cases receives with
  | waiting _ short =>
    simp only [Option.getD_none]
    omega
  | frames handed _ final rest =>
    have seen : ¬ position < max 1 (framing.bound 0) := by
      have reached := framing.bound_mono (Nat.zero_le handed) start.1.counted
      have here := start.1.reached
      have some := start.2
      omega
    simp only [Option.getD_some, seen, false_and, and_false, or_false]
    exact rest.le_final_iff start.1 more ending index counted
  | preamble _ final seen rest =>
    have within := preamble_within fits (by omega) seen ending
    have waiting : position < max 1 (framing.bound 0) := start
    simp only [Option.getD_some, Option.getD_none, waiting, true_and, Nat.zero_add]
    by_cases last : target ≤ framing.capacity
    · -- The buffer is filled only once, so at most one frame leaves it.
      rw [Nat.min_eq_left last] at rest within
      rw [rest.final_of_target, le_handOver_iff (Nat.zero_le _) seen index counted]
      omega
    · have full : min target framing.capacity = framing.capacity := Nat.min_eq_right (by omega)
      rw [full] at rest within
      rw [rest.le_final_iff within (by omega) ending index counted]
      simp only [Framing.handOver, Nat.zero_add]
      split_ifs with ready
      · omega
      · omega

variable (framing) in
/-- The frame leaves the buffer with the given arrival. Going back one frame for each arrival, all
have arrived in time, down to one that leaves without help of its predecessor: it is the first
frame, or more than a full buffer followed the frame before its predecessor, or it shares the
first buffer with the preamble. -/
def CompleteAt (arrived : Nat → Nat) (index arrival : Nat) : Prop :=
  ∃ back < index, (∀ step ≤ back, framing.bound (index - step) ≤ arrived (arrival - step)) ∧
    (back + 1 = index ∨
      framing.bound (index - back - 2) + framing.capacity < arrived (arrival - back) ∨
      (index - back = 2 ∧ arrived (arrival - back - 1) < max 1 (framing.bound 0) ∧
        framing.bound 1 ≤ framing.capacity ∧ framing.capacity < arrived (arrival - back)))

theorem completeAt_iff (arrived : Nat → Nat) (index arrival : Nat) :
    framing.CompleteAt arrived (index + 2) (arrival + 1) ↔
      framing.bound (index + 2) ≤ arrived (arrival + 1) ∧
        (framing.CompleteAt arrived (index + 1) arrival ∨
          framing.bound index + framing.capacity < arrived (arrival + 1) ∨
          (index = 0 ∧ arrived arrival < max 1 (framing.bound 0) ∧
            framing.bound 1 ≤ framing.capacity ∧ framing.capacity < arrived (arrival + 1))) := by
  have shift (step : Nat) : index + 2 - (step + 1) = index + 1 - step := by omega
  constructor
  · rintro ⟨back, below, inTime, free⟩
    refine ⟨inTime 0 (Nat.zero_le _), ?_⟩
    cases back with
    | zero =>
      rcases free with one | far | shared
      · omega
      · exact .inr (.inl far)
      · exact .inr (.inr ⟨by omega, by simpa using shared.2⟩)
    | succ back =>
      refine .inl ⟨back, by omega, ?_, ?_⟩
      · intro step within
        have earlier := inTime (step + 1) (by omega)
        simpa only [shift, Nat.add_sub_add_right] using earlier
      · simpa only [shift, Nat.add_sub_add_right, Nat.add_right_cancel_iff] using free
  · rintro ⟨here, ⟨back, below, inTime, free⟩ | far | ⟨rfl, shared⟩⟩
    · refine ⟨back + 1, by omega, ?_, ?_⟩
      · intro step within
        cases step with
        | zero => exact here
        | succ step => simpa only [shift, Nat.add_sub_add_right] using inTime step (by omega)
      · simpa only [shift, Nat.add_sub_add_right, Nat.add_right_cancel_iff] using free
    · exact ⟨0, by omega, fun step within => by simpa [Nat.le_zero.mp within] using here, .inr (.inl far)⟩
    · exact ⟨0, by omega, fun step within => by simpa [Nat.le_zero.mp within] using here,
        .inr (.inr ⟨rfl, by simpa using shared⟩)⟩

theorem completeAt_one_iff (arrived : Nat → Nat) (arrival : Nat) :
    framing.CompleteAt arrived 1 arrival ↔ framing.bound 1 ≤ arrived arrival := by
  constructor
  · rintro ⟨back, below, inTime, _⟩
    exact inTime 0 (Nat.zero_le _)
  · intro here
    exact ⟨0, by omega, fun step within => by simpa [Nat.le_zero.mp within] using here, .inl rfl⟩

theorem not_completeAt_zero (arrived : Nat → Nat) (nothing : arrived 0 = 0) (index : Nat)
    (first : 1 ≤ index) (counted : index ≤ framing.count) :
    ¬ framing.CompleteAt arrived index 0 := by
  rintro ⟨back, below, inTime, _⟩
  have here := inTime 0 (Nat.zero_le _)
  have beyond := framing.bound_mono first counted
  have step : framing.bound 0 < framing.bound 1 := framing.grows 0 (by omega)
  simp only [Nat.sub_zero, nothing] at here
  omega

-- No arrival brings more than a frame is long, so that the receiver is never a frame behind.
theorem completeAt_of_short (arrived : Nat → Nat) (arrival : Nat) (first : 0 < framing.count)
    (all : framing.bound framing.count ≤ arrived arrival) (nothing : arrived 0 = 0)
    (short : ∀ index < framing.count, ∀ earlier < arrival,
      framing.bound index + arrived (earlier + 1) ≤ framing.bound (index + 1) + arrived earlier) :
    framing.CompleteAt arrived framing.count arrival := by
  have inTime (step : Nat) (below : step ≤ framing.count) :
      framing.bound (framing.count - step) ≤ arrived (arrival - step) := by
    induction step with
    | zero => exact all
    | succ step ih =>
      have later := ih (Nat.le_of_lt below)
      have shift : framing.count - step = framing.count - (step + 1) + 1 := by omega
      rw [shift] at later
      by_cases before : step < arrival
      next =>
        have arrivals : arrival - step = arrival - (step + 1) + 1 := by omega
        have brought := short (framing.count - (step + 1)) (by omega) (arrival - (step + 1)) (by omega)
        rw [arrivals] at later
        omega
      next =>
        have start : arrival - step = 0 := by omega
        have grown := framing.grows (framing.count - (step + 1)) (by omega)
        rw [start, nothing] at later
        omega
  exact ⟨framing.count - 1, by omega, fun step within => inTime step (by omega), .inl (by omega)⟩

variable (framing) in
/-- The arrivals of a stream, of which `arrived i` is the part seen after the `i`-th one. -/
inductive Received (arrived : Nat → Nat) : Nat → Option Nat → Prop where
  | start : Received arrived 0 none
  | next (arrival : Nat) (before after : Option Nat) (earlier : Received arrived arrival before)
      (more : arrived arrival < arrived (arrival + 1))
      (ending : arrived (arrival + 1) ≤ framing.bound framing.count)
      (receives : framing.Receives (arrived (arrival + 1)) before (arrived arrival) after) :
      Received arrived (arrival + 1) after

theorem Received.between {arrived : Nat → Nat} {arrival : Nat} {state : Option Nat}
    (received : framing.Received arrived arrival state)
    (fits : framing.bound 0 ≤ framing.capacity) (nothing : arrived 0 = 0) :
    framing.Between state (arrived arrival) := by
  induction received with
  | start =>
    rw [nothing]
    exact Nat.lt_of_lt_of_le Nat.one_pos (Nat.le_max_left _ _)
  | next arrival before after _ more ending receives ih =>
    exact receives.between fits ih more ending

theorem Received.le_iff {arrived : Nat → Nat} {arrival : Nat} {state : Option Nat}
    (received : framing.Received arrived arrival state)
    (fits : framing.bound 0 ≤ framing.capacity) (nothing : arrived 0 = 0) (index : Nat)
    (first : 1 ≤ index) (counted : index ≤ framing.count) :
    index ≤ state.getD 0 ↔ framing.CompleteAt arrived index arrival := by
  induction received generalizing index with
  | start =>
    have never := framing.not_completeAt_zero arrived nothing index first counted
    simp only [Option.getD_none, never, iff_false]
    omega
  | next arrival before after earlier more ending receives ih =>
    rw [receives.le_iff fits (earlier.between fits nothing) more ending index first counted]
    rcases index with _ | _ | index
    · omega
    · rw [completeAt_one_iff]
      simp
    · rw [completeAt_iff, ← ih (index + 1) (by omega) (by omega)]
      simp

end Framing

end Reassembly
