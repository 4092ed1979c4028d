import Pouch.Shared.ByteMemory
import Pouch.Shared.Cbor

set_option autoImplicit false

namespace Pouch

open ByteMemory

/-- `zcbor_state_t`: where the decoder is in the payload and in the container it is in, the containers around
that one, and how many more may be entered. -/
structure ZcborState where
  payload : Nat
  payloadEnd : Nat
  elemCount : Nat
  indefiniteLengthArray : Bool
  enclosing : List (Nat × Bool)
  backups : Nat

structure ZcborString where
  value : Nat
  len : Nat

def ZcborString.bytes (memory : Memory) (text : ZcborString) : List UInt8 := load memory text.value text.len

/-- The functions of the zcbor library. They read the memory of the payload; `none` is a failure, which leaves
the state as it was. A float is given by its bits. -/
structure Zcbor where
  mapStartDecode : Memory → ZcborState → Option ZcborState
  mapEndDecode : Memory → ZcborState → Option ZcborState
  listMapEndForceDecode : Memory → ZcborState → Option ZcborState
  listStartDecode : Memory → ZcborState → Option ZcborState
  tstrDecode : Memory → ZcborState → Option (ZcborString × ZcborState)
  uint32Decode : Memory → ZcborState → Option (Nat × ZcborState)
  int32Decode : Memory → ZcborState → Option (Int × ZcborState)
  int64Decode : Memory → ZcborState → Option (Int × ZcborState)
  floatDecode : Memory → ZcborState → Option (UInt64 × ZcborState)
  boolDecode : Memory → ZcborState → Option (Bool × ZcborState)
  nilExpect : Memory → ZcborState → Option ZcborState
  anySkip : Memory → ZcborState → Option ZcborState

-- ZCBOR_STATE_D for one element.
def zcborStateD (backups data len : Nat) : ZcborState := ⟨data, data + len, 1, false, [], backups⟩

def ZcborState.majorType (memory : Memory) (zsd : ZcborState) : Nat := (memory zsd.payload).toNat / 32

def zcborListOrMapEnd (memory : Memory) (zsd : ZcborState) : Bool :=
  if zsd.indefiniteLengthArray then
    zsd.payload < zsd.payloadEnd ∧ memory zsd.payload = 0xff
  else
    zsd.elemCount = 0

inductive DecodeError where
  | ebadmsg
  | enoent
  | enomem
  deriving DecidableEq

inductive MapKeyType where
  | u32
  | tstr
  deriving DecidableEq

/-- `struct zcbor_map_key`. The number lies in the lower half of the pointer of the string. -/
structure MapKey where
  type : MapKeyType
  word : Nat
  len : Nat

namespace MapKey

def u32 (key : MapKey) : Nat := key.word % 2 ^ 32

def putU32 (key : MapKey) (value : Nat) : MapKey :=
  { key with type := .u32, word := key.word / 2 ^ 32 * 2 ^ 32 + value }

def putTstr (text : ZcborString) : MapKey := ⟨.tstr, text.value, text.len⟩

end MapKey

-- The key of an expected entry, which is a literal.
inductive EntryKey where
  | u32 (value : Nat)
  | tstr (text : List UInt8)
  deriving DecidableEq

/-- `struct zcbor_map_entry`. What the callback stores behind its pointer is part of `Values`. -/
structure MapEntry (Values : Type) where
  key : EntryKey
  decode : ZcborState → Values → Except DecodeError ZcborState × Values

section Utils

variable (zcbor : Zcbor) (memory : Memory) {Values : Type}

-- The type of the key is not compared. Here there is memory at every address; `EntryKey.compare` is for the others.
def EntryKey.isAt (entry : EntryKey) (key : MapKey) : Bool :=
  match entry with
  | .u32 value => value = key.u32
  | .tstr text => key.len = text.length ∧ load memory key.word text.length = text

def mapEntryGet (entries : List (MapEntry Values)) (key : MapKey) : Option (MapEntry Values) :=
  entries.find? fun entry => entry.key.isAt memory key

def zcborMapKeyDecode (zsd : ZcborState) (key : MapKey) : Except DecodeError (MapKey × ZcborState) :=
  if zsd.majorType memory = 3 then
    match zcbor.tstrDecode memory zsd with
    | none => .error .ebadmsg
    | some (text, zsd) => .ok (.putTstr text, zsd)
  else if zsd.majorType memory = 0 then
    match zcbor.uint32Decode memory zsd with
    | none => .error .ebadmsg
    | some (value, zsd) => .ok (key.putU32 value, zsd)
  else
    .error .ebadmsg

-- Every iteration takes a key of at least one byte from the payload.
def mapDecodeLoop (entries : List (MapEntry Values)) :
    Nat → Nat → ZcborState → MapKey → Values → Except DecodeError (Nat × ZcborState) × Values
  | 0, numDecoded, zsd, _, values => (.ok (numDecoded, zsd), values)
  | fuel + 1, numDecoded, zsd, key, values =>
    if numDecoded < entries.length ∧ zcborListOrMapEnd memory zsd = false then
      match zcborMapKeyDecode zcbor memory zsd key with
      | .error err => (.error err, values)
      | .ok (key, zsd) =>
        match mapEntryGet memory entries key with
        | some entry =>
          match entry.decode zsd values with
          | (.error err, values) => (.error err, values)
          | (.ok zsd, values) => mapDecodeLoop entries fuel (numDecoded + 1) zsd key values
        | none =>
          match zcbor.anySkip memory zsd with
          | none => (.error .ebadmsg, values)
          | some zsd => mapDecodeLoop entries fuel numDecoded zsd key values
    else
      (.ok (numDecoded, zsd), values)

-- `key` is what the local variable holds at first.
def zcborMapDecode (entries : List (MapEntry Values)) (fuel : Nat) (key : MapKey) (zsd : ZcborState)
    (values : Values) : Except DecodeError ZcborState × Values :=
  match zcbor.mapStartDecode memory zsd with
  | none => (.error .ebadmsg, values)
  | some zsd =>
    match mapDecodeLoop zcbor memory entries fuel 0 zsd key values with
    | (.error err, values) => (.error err, values)
    | (.ok (numDecoded, zsd), values) =>
      if numDecoded ≠ 0 ∧ numDecoded < entries.length then
        (.error .ebadmsg, values)
      else
        match zcbor.listMapEndForceDecode memory zsd with
        | none => (.error .ebadmsg, values)
        | some zsd => (if numDecoded = 0 then .error .enoent else .ok zsd, values)

-- `zcbor_map_int64_decode` and `zcbor_map_int32_decode`, which store into a field of the values.
def zcborMapIntDecode (decode : Memory → ZcborState → Option (Int × ZcborState)) (put : Values → Int → Values)
    (zsd : ZcborState) (values : Values) : Except DecodeError ZcborState × Values :=
  match decode memory zsd with
  | none => (.error .ebadmsg, values)
  | some (value, zsd) => (.ok zsd, put values value)

end Utils

-- What local variables hold before they are set.
structure Unset where
  key : MapKey
  hashStr : List UInt8

/-- A call of a service's data callback with its buffer. `unset` is for the variables of `zcbor_map_decode` and of
the loop around it, each time they come into scope. -/
structure DataCall where
  memory : Memory
  data : Nat
  len : Nat
  isLast : Bool
  unset : Nat → Unset

def DataCall.bytes (call : DataCall) : List UInt8 := load call.memory call.data call.len

structure ZcborState.At (memory : Memory) (zsd : ZcborState) (rest : List UInt8) (count : Nat) : Prop where
  within : zsd.payload + rest.length = zsd.payloadEnd
  bytes : load memory zsd.payload rest.length = rest
  items : zsd.elemCount = count
  definite : zsd.indefiniteLengthArray = false

namespace ZcborState.At

variable {memory : Memory} {zsd : ZcborState} {rest : List UInt8} {count : Nat}

theorem start (backups data len : Nat) : (zcborStateD backups data len).At memory (load memory data len) 1 :=
  ⟨by simp [zcborStateD], by simp [zcborStateD], rfl, rfl⟩

theorem listOrMapEnd (at' : zsd.At memory rest count) : zcborListOrMapEnd memory zsd = decide (count = 0) := by
  simp [zcborListOrMapEnd, at'.definite, at'.items]

theorem majorType {first : UInt8} (at' : zsd.At memory (first :: rest) count) :
    zsd.majorType memory = first.toNat / 32 := by
  have byte := at'.bytes
  simp only [List.length_cons, load, List.cons.injEq] at byte
  simp only [ZcborState.majorType, byte.1]

end ZcborState.At

/-- What is documented of a decoding function for one item: it reads the item, and it fails when the payload
ends inside of it. -/
structure Decodes {Value : Type} (decode : Memory → ZcborState → Option (Value × ZcborState))
    (item : List UInt8) (reads : Memory → Value → Prop) : Prop where
  whole : ∀ (memory : Memory) (zsd : ZcborState) (rest : List UInt8) (count : Nat),
    zsd.At memory (item ++ rest) (count + 1) → ∃ value next, decode memory zsd = some (value, next) ∧
      reads memory value ∧ next.At memory rest count ∧
      next.enclosing = zsd.enclosing ∧ next.backups = zsd.backups
  cut : ∀ (memory : Memory) (zsd : ZcborState) (part more : List UInt8) (count : Nat),
    part ++ more = item → more ≠ [] → zsd.At memory part count → decode memory zsd = none

structure Enters (start : Memory → ZcborState → Option ZcborState) (major factor : Nat) : Prop where
  enters : ∀ (memory : Memory) (zsd : ZcborState) (rest : List UInt8) (items count : Nat), items < 2 ^ 16 →
    zsd.At memory (Cbor.encodeHead major items ++ rest) (count + 1) → 0 < zsd.backups →
      ∃ next, start memory zsd = some next ∧ next.At memory rest (factor * items) ∧
        next.enclosing = (count, false) :: zsd.enclosing ∧ next.backups + 1 = zsd.backups
  other : ∀ (memory : Memory) (zsd : ZcborState) (rest : List UInt8) (count : Nat), zsd.At memory rest count →
    (∀ first ∈ rest.head?, first.toNat / 32 ≠ major) → start memory zsd = none

/-- The behaviour of the library that the decoding of documents rests on. -/
structure Zcbor.Lawful (zcbor : Zcbor) : Prop where
  tstr : ∀ text : List UInt8, text.length < 2 ^ 32 →
    Decodes zcbor.tstrDecode (Cbor.encodeHead 3 text.length ++ text) fun memory read => read.bytes memory = text
  uint32 : ∀ value < 2 ^ 32, Decodes zcbor.uint32Decode (Cbor.encodeHead 0 value) fun _ read => read = value
  int64 : ∀ value < 2 ^ 63, Decodes zcbor.int64Decode (Cbor.encodeHead 0 value) fun _ read => read = value
  anySkip : ∀ item, Cbor.Canonical item →
    Decodes (fun memory zsd => (zcbor.anySkip memory zsd).map ((), ·)) item fun _ _ => True
  nilExpect : ∀ (memory : Memory) (zsd : ZcborState) (rest : List UInt8) (count : Nat), zsd.At memory rest count →
    (∀ first ∈ rest.head?, first ≠ 0xf6) → zcbor.nilExpect memory zsd = none
  mapStart : Enters zcbor.mapStartDecode 5 2
  listStart : Enters zcbor.listStartDecode 4 1
  -- At its end a container is left for the one around it.
  mapEnd : ∀ (memory : Memory) (zsd : ZcborState) (rest : List UInt8) (count : Nat) (outer : List (Nat × Bool)),
    zsd.At memory rest 0 → zsd.enclosing = (count, false) :: outer →
      ∃ next, zcbor.mapEndDecode memory zsd = some next ∧ next.At memory rest count ∧
        next.enclosing = outer ∧ next.backups = zsd.backups + 1

end Pouch
