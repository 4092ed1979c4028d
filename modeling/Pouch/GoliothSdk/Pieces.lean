import Mathlib.Data.List.Flatten
import Mathlib.Data.List.Perm.Subperm
import Pouch.GoliothSdk.Zcbor

set_option autoImplicit false

/-!
# Documents in pieces

A service is given a document by one call of its data callback, for an entry, or by several for a stream.
-/

namespace Pouch

open ByteMemory

section Deliveries

def totalSize : List Nat → Nat
  | [] => 0
  | size :: rest => size + totalSize rest

-- The data callbacks for the buffer of an entry, when it is cut into pieces of these sizes.
def cutAt (entry : DataCall) : Nat → List Nat → List DataCall
  | _, [] => []
  | offset, size :: rest =>
    { entry with data := entry.data + offset, len := size, isLast := rest.isEmpty } ::
      cutAt entry (offset + size) rest

def Undivided (sizes : List Nat) : Prop := (sizes.filter (· ≠ 0)).length ≤ 1

instance (sizes : List Nat) : Decidable (Undivided sizes) :=
  inferInstanceAs (Decidable ((sizes.filter (· ≠ 0)).length ≤ 1))

theorem DataCall.bytes_length (call : DataCall) : call.bytes.length = call.len := load_length _ _ _

theorem piece_bytes (entry : DataCall) (offset size : Nat) (isLast : Bool) (inside : offset + size ≤ entry.len) :
    DataCall.bytes { entry with data := entry.data + offset, len := size, isLast := isLast } =
      (entry.bytes.drop offset).take size := by
  have dropped := load_drop entry.memory entry.data entry.len offset (by omega)
  simp only [DataCall.bytes] at dropped ⊢
  rw [dropped, load_take _ _ _ _ (by omega)]

theorem filter_nonzero_eq_nil (sizes : List Nat) : sizes.filter (· ≠ 0) = [] ↔ totalSize sizes = 0 := by
  induction sizes with
  | nil => simp [totalSize]
  | cons size rest ih =>
    by_cases zero : size = 0
    · rw [List.filter_cons_of_neg (by simp [zero]), ih, totalSize, zero, Nat.zero_add]
    · simp [zero, totalSize]

theorem undivided_of_empty (sizes : List Nat) (total : totalSize sizes = 0) : Undivided sizes := by
  rw [Undivided, (filter_nonzero_eq_nil sizes).mpr total]
  exact Nat.zero_le _

theorem undivided_cons (size : Nat) (rest : List Nat) :
    Undivided (size :: rest) ↔ if size = 0 then Undivided rest else totalSize rest = 0 := by
  by_cases zero : size = 0
  · simp [Undivided, zero]
  · have others := filter_nonzero_eq_nil rest
    simp only [Undivided, zero, if_false, ← others, List.filter_cons, ne_eq, not_false_eq_true, decide_true,
      if_true, List.length_cons]
    rw [← List.length_eq_zero_iff]
    omega

def entryOf (document : List UInt8) : DataCall :=
  { memory := store (fun _ => 0) 0 document
    data := 0
    len := document.length
    isLast := true
    unset := fun _ => ⟨⟨.u32, 0, 0⟩, []⟩ }

theorem entryOf_bytes (document : List UInt8) : (entryOf document).bytes = document :=
  load_store_same (fun _ => 0) 0 document

variable {Effects : Type} {handle : Effects → DataCall → Effects} {entry : DataCall}

theorem fold_behind (effects : Effects)
    (behind : ∀ call : DataCall, (∀ byte ∈ call.bytes, byte ∈ entry.bytes.drop 1) → handle effects call = effects)
    (offset : Nat) (sizes : List Nat) (started : 0 < offset) (inside : offset + totalSize sizes ≤ entry.len) :
    (cutAt entry offset sizes).foldl handle effects = effects := by
  induction sizes generalizing offset with
  | nil => rfl
  | cons size rest ih =>
    simp only [totalSize] at inside
    have first : handle effects
        { entry with data := entry.data + offset, len := size, isLast := rest.isEmpty } = effects := by
      apply behind
      intro byte member
      rw [piece_bytes entry offset size _ (by omega)] at member
      have dropped := List.mem_of_mem_take member
      rw [show offset = 1 + (offset - 1) by omega, ← List.drop_drop] at dropped
      exact List.mem_of_mem_drop dropped
    simp only [cutAt, List.foldl_cons, first]
    exact ih (offset + size) (by omega) (by omega)

theorem fold_divided (effects : Effects)
    (beginning : ∀ (call : DataCall) (more : List UInt8), call.bytes ++ more = entry.bytes → more ≠ [] →
      handle effects call = effects)
    (behind : ∀ call : DataCall, (∀ byte ∈ call.bytes, byte ∈ entry.bytes.drop 1) → handle effects call = effects)
    (sizes : List Nat) (total : totalSize sizes = entry.len) (divided : ¬ Undivided sizes) :
    (cutAt entry 0 sizes).foldl handle effects = effects := by
  induction sizes with
  | nil => rfl
  | cons size rest ih =>
    have bytes := piece_bytes entry 0 size rest.isEmpty (by simp only [totalSize] at total; omega)
    simp only [totalSize] at total
    rw [undivided_cons] at divided
    have first : handle effects
        { entry with data := entry.data + 0, len := size, isLast := rest.isEmpty } = effects := by
      apply beginning _ (entry.bytes.drop size)
      · rw [bytes, List.drop_zero, List.take_append_drop]
      · intro all
        have length := congrArg List.length all
        rw [List.length_drop, entry.bytes_length, List.length_nil] at length
        split_ifs at divided with zero
        · exact divided (undivided_of_empty rest (by omega))
        · omega
    simp only [cutAt, List.foldl_cons, first]
    by_cases zero : size = 0
    next =>
      simp only [zero, if_true] at divided
      have later := ih (by omega) divided
      simpa [zero] using later
    next => exact fold_behind effects behind (0 + size) rest (by omega) (by omega)

theorem divided_differs (handle : Effects → DataCall → Effects) (document : List UInt8) (effects : Effects)
    (whole : ∀ call : DataCall, call.bytes = document → handle effects call ≠ effects)
    (beginning : ∀ (call : DataCall) (more : List UInt8), call.bytes ++ more = document → more ≠ [] →
      handle effects call = effects)
    (behind : ∀ call : DataCall, (∀ byte ∈ call.bytes, byte ∈ document.drop 1) → handle effects call = effects)
    (sizes : List Nat) (total : totalSize sizes = document.length) (divided : ¬ Undivided sizes) :
    ∃ entry : DataCall, entry.len = totalSize sizes ∧ entry.bytes = document ∧
      (cutAt entry 0 sizes).foldl handle effects ≠ handle effects entry := by
  have bytes := entryOf_bytes document
  refine ⟨entryOf document, total.symm, bytes, ?_⟩
  rw [fold_divided effects _ _ sizes total divided]
  · exact (whole _ bytes).symm
  · intro call more split
    exact beginning call more (split.trans bytes)
  · intro call inside
    rw [bytes] at inside
    exact behind call inside

theorem fold_undivided (effects : Effects)
    (empty : ∀ effects (call : DataCall), call.len = 0 → handle effects call = effects)
    (anyLast : ∀ effects (call : DataCall) isLast, handle effects { call with isLast := isLast } = handle effects call)
    (sizes : List Nat) (total : totalSize sizes = entry.len) (undivided : Undivided sizes) :
    (cutAt entry 0 sizes).foldl handle effects = handle effects entry := by
  have nothing (offset : Nat) (sizes : List Nat) (effects : Effects) (total : totalSize sizes = 0) :
      (cutAt entry offset sizes).foldl handle effects = effects := by
    induction sizes generalizing offset with
    | nil => rfl
    | cons size rest ih =>
      simp only [totalSize, Nat.add_eq_zero_iff] at total
      simp only [cutAt, List.foldl_cons]
      rw [empty effects _ total.1, ih _ total.2]
  induction sizes with
  | nil => exact (empty effects entry total.symm).symm
  | cons size rest ih =>
    simp only [totalSize] at total
    rw [undivided_cons] at undivided
    simp only [cutAt, List.foldl_cons]
    by_cases zero : size = 0
    next =>
      simp only [zero, if_true] at undivided
      rw [empty effects _ zero]
      have later := ih (by omega) undivided
      simpa [zero] using later
    next =>
      simp only [zero, if_false] at undivided
      rw [nothing _ _ _ undivided]
      have whole : size = entry.len := by omega
      simpa [whole] using anyLast effects entry rest.isEmpty

end Deliveries

theorem length_flatMap_subset {Pair : Type} (bytes : Pair → List UInt8) (chosen pairs : List Pair)
    (different : chosen.Nodup) (members : chosen ⊆ pairs) :
    (chosen.flatMap bytes).length ≤ (pairs.flatMap bytes).length := by
  obtain ⟨ordered, permuted, sublist⟩ := List.subperm_of_subset different members
  rw [← (permuted.flatMap_right bytes).length_eq]
  exact (sublist.flatMap bytes).length_le

end Pouch
