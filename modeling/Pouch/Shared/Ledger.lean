import Mathlib.Algebra.Order.Group.Multiset
import Mathlib.Data.Multiset.Range
import Mathlib.Data.Multiset.UnionInter
import Mathlib.Tactic.Abel

set_option autoImplicit false

/-!
# Allocations and who holds them

Allocations are numbered. A ledger counts those that are active and remembers those that were freed;
it is balanced when everything allocated is held exactly once or was freed exactly once.
-/

structure Ledger where
  next : Nat
  active : Int
  freed : Multiset Nat

namespace Ledger

def empty : Ledger := ⟨0, 0, 0⟩

def alloc (ledger : Ledger) : Ledger :=
  { ledger with next := ledger.next + 1, active := ledger.active + 1 }

def free (ledger : Ledger) (number : Nat) : Ledger :=
  { ledger with active := ledger.active - 1, freed := number ::ₘ ledger.freed }

def freeAll (ledger : Ledger) (numbers : List Nat) : Ledger := numbers.foldl free ledger

def live (ledger : Ledger) : Multiset Nat := Multiset.range ledger.next - ledger.freed

structure Balanced (ledger : Ledger) (held : Multiset Nat) : Prop where
  accounted : held + ledger.freed = Multiset.range ledger.next
  active : ledger.active = held.card

theorem Balanced.empty : Balanced empty 0 := ⟨rfl, rfl⟩

variable {first second third : Ledger} {held taken given middle : Multiset Nat}

theorem Balanced.nodup (balanced : Balanced first held) : (held + first.freed).Nodup := by
  rw [balanced.accounted]
  exact Multiset.nodup_range first.next

theorem Balanced.live_eq (balanced : Balanced first held) : first.live = held := by
  rw [live, ← balanced.accounted, add_tsub_cancel_right]

theorem Balanced.held_nodup (balanced : Balanced first held) : held.Nodup :=
  (Multiset.nodup_add.mp balanced.nodup).1

theorem Balanced.freed_nodup (balanced : Balanced first held) : first.freed.Nodup :=
  (Multiset.nodup_add.mp balanced.nodup).2.1

/-- Between the two ledgers, the allocations in `taken` were replaced by those in `given`, whatever
else is held. -/
structure Exchange (first : Ledger) (taken : Multiset Nat) (second : Ledger) (given : Multiset Nat) :
    Prop where
  balanced : ∀ others, Balanced first (taken + others) → Balanced second (given + others)
  grows : first.next ≤ second.next

theorem Exchange.refl (ledger : Ledger) (held : Multiset Nat) : Exchange ledger held ledger held :=
  ⟨fun _ balanced => balanced, Nat.le_refl _⟩

theorem Exchange.trans (left : Exchange first taken second middle)
    (right : Exchange second middle third given) : Exchange first taken third given :=
  ⟨fun others before => right.balanced others (left.balanced others before),
    left.grows.trans right.grows⟩

theorem Exchange.frame (exchange : Exchange first taken second given) (others : Multiset Nat) :
    Exchange first (taken + others) second (given + others) := by
  refine ⟨?_, exchange.grows⟩
  intro more before
  rw [add_assoc] at before ⊢
  exact exchange.balanced (others + more) before

theorem exchange_alloc (ledger : Ledger) : Exchange ledger 0 ledger.alloc {ledger.next} := by
  refine ⟨?_, Nat.le_succ _⟩
  intro others before
  rw [zero_add] at before
  refine ⟨?_, ?_⟩
  · have accounted := before.accounted
    simp only [alloc, Multiset.range_succ, ← accounted, Multiset.singleton_add, Multiset.cons_add]
  · have active := before.active
    simp only [alloc, active, Multiset.singleton_add, Multiset.card_cons, Nat.cast_add, Nat.cast_one]

theorem exchange_free (ledger : Ledger) (number : Nat) : Exchange ledger {number} (ledger.free number) 0 := by
  refine ⟨?_, Nat.le_refl _⟩
  intro others before
  refine ⟨?_, ?_⟩
  · have accounted := before.accounted
    simp only [free, zero_add]
    rw [← accounted, Multiset.singleton_add, Multiset.add_cons, Multiset.cons_add]
  · have active := before.active
    simp only [Multiset.singleton_add, Multiset.card_cons, Nat.cast_add, Nat.cast_one] at active
    simp only [free, zero_add, active]
    omega

theorem exchange_freeAll (ledger : Ledger) (numbers : List Nat) :
    Exchange ledger numbers (ledger.freeAll numbers) 0 := by
  induction numbers generalizing ledger with
  | nil => exact Exchange.refl ledger 0
  | cons number rest ih =>
    have freed := (exchange_free ledger number).frame rest
    rw [Multiset.singleton_add, Multiset.cons_coe, zero_add] at freed
    exact freed.trans (ih (ledger.free number))

end Ledger
