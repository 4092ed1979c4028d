import Pouch.Config
import Pouch.Shared.ByteMemory

set_option autoImplicit false

namespace Pouch

open ByteMemory

/-- `struct pouch_buf`: the memory of the allocation and the number of bytes in use. -/
structure PouchBuf where
  bytes : Nat
  buf : Memory

namespace PouchBuf

def contents (buf : PouchBuf) : List UInt8 := load buf.buf 0 buf.bytes

@[simp] theorem contents_length (buf : PouchBuf) : buf.contents.length = buf.bytes := by
  simp [contents]

def ofList (bytes : List UInt8) : PouchBuf := { bytes := bytes.length, buf := store (fun _ => 0) 0 bytes }

@[simp] theorem ofList_contents (bytes : List UInt8) : (ofList bytes).contents = bytes :=
  load_store_same (fun _ => 0) 0 bytes

end PouchBuf

-- `buf_alloc`, given what `malloc` returned: NULL or memory with arbitrary contents.
def bufAlloc (malloc : Option Memory) : Option PouchBuf :=
  malloc.map fun memory => { bytes := 0, buf := memory }

-- Returns the position of the claimed bytes.
def bufClaim (buf : PouchBuf) (bytes : Nat) : Nat × PouchBuf :=
  (buf.bytes, { buf with bytes := buf.bytes + bytes })

def bufPut (buf : PouchBuf) (position : Nat) (data : List UInt8) : PouchBuf :=
  { buf with buf := store buf.buf position data }

def bufWrite (buf : PouchBuf) (data : List UInt8) : PouchBuf :=
  let (position, claimed) := bufClaim buf data.length
  bufPut claimed position data

def bufSizeGet (buf : PouchBuf) : Nat := buf.bytes

def bufStateGet (buf : PouchBuf) : Nat := buf.bytes

def bufRestore (buf : PouchBuf) (state : Nat) : PouchBuf := { buf with bytes := state }

def bufTrimStart (buf : PouchBuf) (bytes : Nat) : PouchBuf × Nat :=
  let trimmed := min bytes buf.bytes
  let rest := buf.bytes - trimmed
  ({ bytes := rest, buf := store buf.buf 0 (load buf.buf trimmed rest) }, trimmed)

def bufTrimEnd (buf : PouchBuf) (bytes : Nat) : PouchBuf × Nat :=
  let trimmed := min bytes buf.bytes
  ({ buf with bytes := buf.bytes - trimmed }, trimmed)

@[simp] theorem bufAlloc_contents (memory : Memory) :
    ({ bytes := 0, buf := memory } : PouchBuf).contents = [] := rfl

@[simp] theorem bufWrite_bytes (buf : PouchBuf) (data : List UInt8) :
    (bufWrite buf data).bytes = buf.bytes + data.length := rfl

@[simp] theorem bufWrite_contents (buf : PouchBuf) (data : List UInt8) :
    (bufWrite buf data).contents = buf.contents ++ data := by
  have appended := load_store_append buf.buf 0 buf.bytes data
  simpa [bufWrite, bufClaim, bufPut, PouchBuf.contents] using appended

@[simp] theorem bufTrimStart_contents (buf : PouchBuf) (bytes : Nat) :
    (bufTrimStart buf bytes).1.contents = buf.contents.drop bytes := by
  have moved := load_store_same buf.buf 0 (load buf.buf (min bytes buf.bytes)
    (buf.bytes - min bytes buf.bytes))
  rw [load_length] at moved
  have kept : (bufTrimStart buf bytes).1.contents =
      load buf.buf (min bytes buf.bytes) (buf.bytes - min bytes buf.bytes) := moved
  rw [kept]
  by_cases within : bytes ≤ buf.bytes
  · rw [Nat.min_eq_left within, PouchBuf.contents, load_drop _ _ _ _ within, Nat.zero_add]
  · have all : buf.contents.drop bytes = [] := List.drop_eq_nil_of_le (by simp; omega)
    rw [all, Nat.min_eq_right (by omega), Nat.sub_self]
    rfl

@[simp] theorem bufTrimEnd_contents (buf : PouchBuf) (bytes : Nat) :
    (bufTrimEnd buf bytes).1.contents = buf.contents.take (buf.bytes - bytes) := by
  have same : buf.bytes - min bytes buf.bytes = buf.bytes - bytes := by omega
  simp only [bufTrimEnd, PouchBuf.contents, same]
  rw [load_take _ _ _ _ (Nat.sub_le _ _)]

structure Bufview where
  buf : Option PouchBuf
  offset : Nat

def Bufview.memory (view : Bufview) : Memory :=
  match view.buf with
  | some buf => buf.buf
  | none => fun _ => 0

def pouchBufviewInit (buf : PouchBuf) : Bufview := { buf := some buf, offset := 0 }

section Reads

variable (cfg : Config)

-- Advances the view without any check and returns the position read from.
def bufviewRead (view : Bufview) (bytes : Nat) : Nat × Bufview :=
  (view.offset, { view with offset := (view.offset + bytes) % cfg.sizeRange })

def pouchBufviewAvailable (view : Bufview) : Nat :=
  match view.buf with
  | none => 0
  | some buf => cfg.sizeSub buf.bytes view.offset

def pouchBufviewMemcpy (view : Bufview) (bytes : Nat) : List UInt8 × Bufview :=
  let bytes := min bytes (pouchBufviewAvailable cfg view)
  let (position, next) := bufviewRead cfg view bytes
  (load view.memory position bytes, next)

-- `none` is the NULL result.
def pouchBufviewRead (view : Bufview) (bytes : Nat) : Option Nat × Bufview :=
  if pouchBufviewAvailable cfg view < bytes then
    (none, view)
  else
    let (position, next) := bufviewRead cfg view bytes
    (some position, next)

def pouchBufviewReadByte (view : Bufview) : UInt8 × Bufview :=
  let (position, next) := bufviewRead cfg view 1
  (view.memory position, next)

def pouchBufviewReadBe16 (view : Bufview) : Nat × Bufview :=
  let (position, next) := bufviewRead cfg view 2
  (getBe16 (view.memory position) (view.memory (position + 1)), next)

end Reads

structure Bufview.At (view : Bufview) (buf : PouchBuf) (rest : List UInt8) : Prop where
  source : view.buf = some buf
  within : view.offset + rest.length = buf.bytes
  remaining : buf.contents.drop view.offset = rest

namespace Bufview.At

variable {cfg : Config} {view : Bufview} {buf : PouchBuf} {rest : List UInt8}

theorem start (buf : PouchBuf) : (pouchBufviewInit buf).At buf buf.contents :=
  ⟨rfl, by simp [pouchBufviewInit], rfl⟩

theorem loaded (at' : view.At buf rest) : load view.memory view.offset rest.length = rest := by
  have drop := at'.remaining
  rw [PouchBuf.contents, load_drop _ _ _ _ (by have := at'.within; omega), Nat.zero_add] at drop
  have length : buf.bytes - view.offset = rest.length := by have := at'.within; omega
  rw [length] at drop
  simpa [Bufview.memory, at'.source] using drop

theorem loaded_take (at' : view.At buf rest) (count : Nat) (within : count ≤ rest.length) :
    load view.memory view.offset count = rest.take count := by
  rw [← load_take view.memory view.offset rest.length count within, at'.loaded]

theorem loaded_drop (at' : view.At buf rest) (count : Nat) (within : count ≤ rest.length) :
    load view.memory (view.offset + count) (rest.length - count) = rest.drop count := by
  rw [← load_drop view.memory view.offset rest.length count within, at'.loaded]

theorem available (at' : view.At buf rest) (fits : buf.bytes < cfg.sizeRange) :
    pouchBufviewAvailable cfg view = rest.length := by
  have within := at'.within
  simp only [pouchBufviewAvailable, at'.source]
  rw [cfg.sizeSub_of_le _ _ (by omega) fits]
  omega

theorem advance (at' : view.At buf rest) (fits : buf.bytes < cfg.sizeRange) (count : Nat)
    (within : count ≤ rest.length) :
    (bufviewRead cfg view count).2.At buf (rest.drop count) := by
  have inside := at'.within
  have offset : (view.offset + count) % cfg.sizeRange = view.offset + count :=
    Nat.mod_eq_of_lt (by omega)
  refine ⟨at'.source, ?_, ?_⟩
  · simp only [bufviewRead, offset, List.length_drop]
    omega
  · simp only [bufviewRead, offset]
    rw [← List.drop_drop, at'.remaining]

theorem read (at' : view.At buf rest) (fits : buf.bytes < cfg.sizeRange) (count : Nat)
    (within : count ≤ rest.length) :
    pouchBufviewRead cfg view count = (some view.offset, (bufviewRead cfg view count).2) := by
  have enough : ¬ pouchBufviewAvailable cfg view < count := by
    rw [at'.available fits]
    omega
  simp only [pouchBufviewRead, if_neg enough]
  rfl

theorem read_null (at' : view.At buf rest) (fits : buf.bytes < cfg.sizeRange) (count : Nat)
    (beyond : rest.length < count) : pouchBufviewRead cfg view count = (none, view) := by
  have short : pouchBufviewAvailable cfg view < count := by
    rw [at'.available fits]
    exact beyond
  simp only [pouchBufviewRead, if_pos short]

theorem readByte (cfg : Config) (first : UInt8) (at' : view.At buf (first :: rest)) :
    pouchBufviewReadByte cfg view = (first, (bufviewRead cfg view 1).2) := by
  have byte := at'.loaded_take 1 (by simp)
  simp only [load, List.take_succ_cons, List.take_zero, List.cons.injEq, and_true] at byte
  simp only [pouchBufviewReadByte]
  exact Prod.ext byte rfl

theorem readBe16 (cfg : Config) (high low : UInt8) (at' : view.At buf (high :: low :: rest)) :
    pouchBufviewReadBe16 cfg view = (getBe16 high low, (bufviewRead cfg view 2).2) := by
  have bytes := at'.loaded_take 2 (by simp)
  simp only [load, List.take_succ_cons, List.take_zero, List.cons.injEq, and_true] at bytes
  simp only [pouchBufviewReadBe16]
  refine Prod.ext ?_ rfl
  change getBe16 (view.memory view.offset) (view.memory (view.offset + 1)) = _
  rw [bytes.1, bytes.2]

end Bufview.At

end Pouch
