import Mathlib.Data.List.Basic
import Mathlib.Tactic.SplitIfs

set_option autoImplicit false

/-!
# Byte memories

A memory is a total function, so a load past the bytes that were stored is not
an error: it returns whatever the memory held before.
-/

namespace ByteMemory

abbrev Memory := Nat → UInt8

def load (memory : Memory) (address : Nat) : Nat → List UInt8
  | 0 => []
  | count + 1 => memory address :: load memory (address + 1) count

def store (memory : Memory) (address : Nat) (bytes : List UInt8) : Memory :=
  fun index => if address ≤ index then bytes[index - address]?.getD (memory index) else memory index

@[simp] theorem load_length (memory : Memory) (address count : Nat) :
    (load memory address count).length = count := by
  induction count generalizing address with
  | zero => rfl
  | succ count ih => simp [load, ih]

theorem load_getElem? (memory : Memory) (address count index : Nat) (within : index < count) :
    (load memory address count)[index]? = some (memory (address + index)) := by
  induction count generalizing address index with
  | zero => omega
  | succ count ih =>
    cases index with
    | zero => simp [load]
    | succ index =>
      have next := ih (address + 1) index (by omega)
      simpa [load, Nat.add_assoc, Nat.add_comm 1] using next

theorem load_congr (left right : Memory) (address count : Nat)
    (same : ∀ index, address ≤ index → index < address + count → left index = right index) :
    load left address count = load right address count := by
  induction count generalizing address with
  | zero => rfl
  | succ count ih =>
    simp only [load]
    rw [same address (by omega) (by omega)]
    rw [ih (address + 1) (fun index above below => same index (by omega) (by omega))]

theorem load_add (memory : Memory) (address first second : Nat) :
    load memory address (first + second) =
      load memory address first ++ load memory (address + first) second := by
  induction first generalizing address with
  | zero => simp [load]
  | succ first ih =>
    have shift : first + 1 + second = (first + second) + 1 := by omega
    have base : address + 1 + first = address + (first + 1) := by omega
    simp only [shift, load, ih, base, List.cons_append]

theorem load_take (memory : Memory) (address count kept : Nat) (within : kept ≤ count) :
    (load memory address count).take kept = load memory address kept := by
  obtain ⟨rest, rfl⟩ := Nat.exists_eq_add_of_le within
  rw [load_add]
  simp

theorem load_drop (memory : Memory) (address count dropped : Nat) (within : dropped ≤ count) :
    (load memory address count).drop dropped = load memory (address + dropped) (count - dropped) := by
  obtain ⟨rest, rfl⟩ := Nat.exists_eq_add_of_le within
  rw [load_add]
  simp

theorem store_outside (memory : Memory) (address : Nat) (bytes : List UInt8) (index : Nat)
    (outside : index < address ∨ address + bytes.length ≤ index) :
    store memory address bytes index = memory index := by
  unfold store
  by_cases above : address ≤ index
  · have missing : bytes[index - address]? = none := by
      apply List.getElem?_eq_none
      omega
    simp [above, missing]
  · simp [above]

theorem store_head (memory : Memory) (address : Nat) (byte : UInt8) (rest : List UInt8) :
    store memory address (byte :: rest) address = byte := by
  simp [store]

theorem load_store_frame (memory : Memory) (address : Nat) (bytes : List UInt8) (start count : Nat)
    (outside : start + count ≤ address ∨ address + bytes.length ≤ start) :
    load (store memory address bytes) start count = load memory start count := by
  apply load_congr
  intro index above below
  exact store_outside memory address bytes index (by omega)

theorem load_store_same (memory : Memory) (address : Nat) (bytes : List UInt8) :
    load (store memory address bytes) address bytes.length = bytes := by
  apply List.ext_getElem?
  intro index
  by_cases within : index < bytes.length
  · rw [load_getElem? _ _ _ _ within]
    simp [store, List.getElem?_eq_getElem within]
  · rw [List.getElem?_eq_none (by simpa using within), List.getElem?_eq_none (by omega)]

theorem load_store_append (memory : Memory) (start count : Nat) (bytes : List UInt8) :
    load (store memory (start + count) bytes) start (count + bytes.length) =
      load memory start count ++ bytes := by
  rw [load_add, load_store_frame _ _ _ _ _ (Or.inl (Nat.le_refl _)), load_store_same]

-- Big-endian encoding of a 16-bit field; higher bits of the value are cut off.
def putBe16 (value : Nat) : List UInt8 :=
  [UInt8.ofNat (value / 256), UInt8.ofNat value]

def getBe16 (high low : UInt8) : Nat := high.toNat * 256 + low.toNat

@[simp] theorem putBe16_length (value : Nat) : (putBe16 value).length = 2 := rfl

theorem getBe16_put (value : Nat) :
    getBe16 (UInt8.ofNat (value / 256)) (UInt8.ofNat value) = value % 65536 := by
  simp only [getBe16, UInt8.toNat_ofNat']
  omega

theorem getBe16_lt (high low : UInt8) : getBe16 high low < 65536 := by
  have highBound := high.toNat_lt
  have lowBound := low.toNat_lt
  simp only [getBe16]
  omega

theorem putBe16_get (high low : UInt8) : putBe16 (getBe16 high low) = [high, low] := by
  have lowBound := low.toNat_lt
  have highPart : (high.toNat * 256 + low.toNat) / 256 = high.toNat := by omega
  have lowPart : UInt8.ofNat (high.toNat * 256 + low.toNat) = low := by
    apply UInt8.toNat_inj.mp
    simp only [UInt8.toNat_ofNat']
    omega
  simp [putBe16, getBe16, highPart, lowPart]

end ByteMemory
