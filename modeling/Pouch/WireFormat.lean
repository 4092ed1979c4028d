import Mathlib.Data.List.TakeWhile
import Pouch.DownlinkEntries

set_option autoImplicit false

/-!
# The block format

What a block is supposed to be, independent of the code that reads and writes it. The readers of
`entry.c` accept exactly the encodings of these values, and the writers produce them.
-/

namespace Pouch

open ByteMemory

structure WireEntry where
  path : List UInt8
  contentType : Nat
  data : List UInt8
  pathFits : path.length < 256
  contentTypeFits : contentType < 65536
  dataFits : data.length < 65536

def WireEntry.encode (entry : WireEntry) : List UInt8 :=
  putBe16 entry.data.length ++ putBe16 entry.contentType ++
    UInt8.ofNat entry.path.length :: (entry.path ++ entry.data)

inductive WireBlock where
  | entries (id : UInt8) (isEntry : id &&& blockIdMask = blockIdEntry) (entries : List WireEntry)
  | streamStart (id : UInt8) (isStream : id &&& blockIdMask ≠ blockIdEntry)
      (isFirst : id &&& firstDataMask ≠ 0) (path : List UInt8) (contentType : Nat)
      (data : List UInt8) (pathFits : path.length < 256) (contentTypeFits : contentType < 65536)
  | streamData (id : UInt8) (isStream : id &&& blockIdMask ≠ blockIdEntry)
      (notFirst : id &&& firstDataMask = 0) (data : List UInt8)

namespace WireBlock

def id : WireBlock → UInt8
  | .entries id _ _ | .streamStart id _ _ _ _ _ _ _ | .streamData id _ _ _ => id

def body : WireBlock → List UInt8
  | .entries _ _ items => items.flatMap WireEntry.encode
  | .streamStart _ _ _ path contentType data _ _ =>
      putBe16 contentType ++ UInt8.ofNat path.length :: (path ++ data)
  | .streamData _ _ _ data => data

def payload (block : WireBlock) : List UInt8 := block.id :: block.body

def encode (block : WireBlock) : List UInt8 := putBe16 block.payload.length ++ block.payload

end WireBlock

-- A handler call with the memory it reads; paths are C strings.
inductive HandlerCall where
  | start (streamId : Nat) (path : List UInt8) (contentType : Nat)
  | data (streamId : Nat) (data : List UInt8) (isLast : Bool)
  deriving DecidableEq, Repr

def cString (bytes : List UInt8) : List UInt8 := bytes.takeWhile (· ≠ 0)

theorem cString_of_noNul (bytes : List UInt8) (noNul : ∀ byte ∈ bytes, byte ≠ 0) : cString bytes = bytes :=
  List.takeWhile_eq_self_iff.mpr fun byte member => decide_eq_true (noNul byte member)

def WireEntry.calls (entry : WireEntry) : List HandlerCall :=
  [.start 0 (cString entry.path) entry.contentType, .data 0 entry.data true]

def WireBlock.calls : WireBlock → List HandlerCall
  | .entries _ _ items => items.flatMap WireEntry.calls
  | .streamStart id _ _ path contentType data _ _ =>
      [.start (id &&& blockIdMask).toNat (cString path) contentType,
        .data (id &&& blockIdMask).toNat data (id &&& lastDataMask != 0)]
  | .streamData id _ _ data =>
      [.data (id &&& blockIdMask).toNat data (id &&& lastDataMask != 0)]

def Slice.bytes (buf : PouchBuf) (slice : Slice) : List UInt8 :=
  match slice.pointer with
  | some position => load buf.buf position slice.length
  | none => []

def Slice.Inside (buf : PouchBuf) (slice : Slice) : Prop :=
  ∃ position, slice.pointer = some position ∧ position + slice.length ≤ buf.bytes

def DownlinkEvent.call? (buf : PouchBuf) : DownlinkEvent → Option HandlerCall
  | .view _ => none
  | .start streamId path contentType => some (.start streamId (cString (path.bytes buf)) contentType)
  | .data streamId slice isLast => some (.data streamId (slice.bytes buf) isLast)

def handlerCalls (buf : PouchBuf) (events : List DownlinkEvent) : List HandlerCall :=
  events.filterMap (DownlinkEvent.call? buf)

/-- The view stays inside the buffer, no NULL pointer is used and the handlers only see memory of
the block. -/
def DownlinkEvent.Safe (buf : PouchBuf) : DownlinkEvent → Prop
  | .view offset => offset ≤ buf.bytes
  | .start _ path _ => path.Inside buf
  | .data _ slice _ => slice.Inside buf

-- The blocks are pushed in order; `none` when one of the runs has not ended yet.
def handleBlocks (cfg : Config) (fuel : Nat) : List PouchBuf → Option (List HandlerCall)
  | [] => some []
  | buf :: rest => do
    let events ← pouchDownlinkBlockPush cfg fuel buf
    let calls ← handleBlocks cfg fuel rest
    return handlerCalls buf events ++ calls

def sizeField (buf : PouchBuf) : Option Nat :=
  match buf.contents with
  | high :: low :: _ => some (getBe16 high low)
  | _ => none

/-- Decoding the block ends, and every step of it is safe. -/
def HandledSafely (cfg : Config) (buf : PouchBuf) : Prop :=
  ∃ fuel events, pouchDownlinkBlockPush cfg fuel buf = some events ∧
    ∀ event ∈ events, event.Safe buf

@[simp] theorem handlerCalls_append (buf : PouchBuf) (first second : List DownlinkEvent) :
    handlerCalls buf (first ++ second) = handlerCalls buf first ++ handlerCalls buf second := by
  simp [handlerCalls]

@[simp] theorem handlerCalls_nil (buf : PouchBuf) : handlerCalls buf [] = [] := rfl

@[simp] theorem handlerCalls_view (buf : PouchBuf) (offset : Nat) (rest : List DownlinkEvent) :
    handlerCalls buf (.view offset :: rest) = handlerCalls buf rest := rfl

@[simp] theorem handlerCalls_start (buf : PouchBuf) (streamId : Nat) (path : Slice)
    (contentType : Nat) (rest : List DownlinkEvent) :
    handlerCalls buf (.start streamId path contentType :: rest) =
      .start streamId (cString (path.bytes buf)) contentType :: handlerCalls buf rest := rfl

@[simp] theorem handlerCalls_data (buf : PouchBuf) (streamId : Nat) (slice : Slice) (isLast : Bool)
    (rest : List DownlinkEvent) :
    handlerCalls buf (.data streamId slice isLast :: rest) =
      .data streamId (slice.bytes buf) isLast :: handlerCalls buf rest := rfl

namespace Bufview.At

variable {cfg : Config} {view : Bufview} {buf : PouchBuf} {rest : List UInt8}

theorem offset_le (at' : view.At buf rest) : view.offset ≤ buf.bytes := by
  have within := at'.within
  omega

theorem slice_inside (at' : view.At buf rest) (count : Nat) (within : count ≤ rest.length) :
    (⟨some view.offset, count⟩ : Slice).Inside buf :=
  ⟨view.offset, rfl, by have := at'.within; simp only; omega⟩

theorem slice_bytes (at' : view.At buf rest) (count : Nat) (within : count ≤ rest.length) :
    (⟨some view.offset, count⟩ : Slice).bytes buf = rest.take count := by
  have loaded := at'.loaded_take count within
  simpa [Slice.bytes, Bufview.memory, at'.source] using loaded

theorem readBe16_put (value : Nat) (at' : view.At buf (putBe16 value ++ rest))
    (fits : buf.bytes < cfg.sizeRange) :
    (pouchBufviewReadBe16 cfg view).1 = value % 65536 ∧
      (pouchBufviewReadBe16 cfg view).2.At buf rest := by
  rw [at'.readBe16]
  exact ⟨getBe16_put value, at'.advance fits 2 (by simp)⟩

theorem readByte_cons (byte : UInt8) (at' : view.At buf (byte :: rest))
    (fits : buf.bytes < cfg.sizeRange) :
    (pouchBufviewReadByte cfg view).1 = byte ∧ (pouchBufviewReadByte cfg view).2.At buf rest := by
  rw [at'.readByte]
  refine ⟨rfl, ?_⟩
  simpa using at'.advance fits 1 (by simp)

theorem read_append (first : List UInt8) (at' : view.At buf (first ++ rest))
    (fits : buf.bytes < cfg.sizeRange) :
    (pouchBufviewRead cfg view first.length).1 = some view.offset ∧
      (pouchBufviewRead cfg view first.length).2.At buf rest := by
  rw [at'.read fits first.length (by simp)]
  refine ⟨rfl, ?_⟩
  simpa using at'.advance fits first.length (by simp)

theorem memcpy_all (at' : view.At buf rest) (fits : buf.bytes < cfg.sizeRange) (count : Nat)
    (left : rest.length = count) : (pouchBufviewMemcpy cfg view count).1 = rest := by
  subst left
  simp only [pouchBufviewMemcpy, at'.available fits, Nat.min_self]
  exact at'.loaded

theorem advance_within (at' : view.At buf rest) (count : Nat)
    (fits : buf.bytes + count < cfg.sizeRange)
    (safe : (bufviewRead cfg view count).2.offset ≤ buf.bytes) : count ≤ rest.length := by
  have inside := at'.within
  simp only [bufviewRead] at safe
  rw [Nat.mod_eq_of_lt (by omega)] at safe
  omega

theorem read_within (at' : view.At buf rest) (count : Nat) (fits : buf.bytes < cfg.sizeRange)
    (pointer : Nat) (notNull : (pouchBufviewRead cfg view count).1 = some pointer) :
    count ≤ rest.length := by
  by_contra beyond
  rw [at'.read_null fits count (by omega)] at notNull
  exact absurd notNull (by simp)

end Bufview.At

end Pouch
