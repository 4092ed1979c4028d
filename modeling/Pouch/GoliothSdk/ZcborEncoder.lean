import Pouch.Shared.Cbor

set_option autoImplicit false

namespace Pouch

/-- The functions of the zcbor library that encode into a buffer; `none` is a failure. -/
structure ZcborEncoder where
  State : Type
  -- ZCBOR_STATE_E for one element: the number of backups, and the size of the buffer.
  stateE : Nat → Nat → State
  -- Given the largest number of elements, which is only used for the size of the head.
  mapStartEncode : State → Nat → Option State
  mapEndEncode : State → Nat → Option State
  tstrPut : State → List UInt8 → Option State
  uint32Put : State → Nat → Option State
  -- The buffer as far as the payload.
  encoded : State → List UInt8

namespace ZcborEncoder

def put (zcbor : ZcborEncoder) (zse : zcbor.State) : Cbor.Item → Option zcbor.State
  | .uint value => zcbor.uint32Put zse value
  | .text text => zcbor.tstrPut zse text
  | _ => none

def putPairs (zcbor : ZcborEncoder) : zcbor.State → List (List UInt8 × Cbor.Item) → Option zcbor.State
  | zse, [] => some zse
  | zse, (label, value) :: rest =>
    (zcbor.tstrPut zse label).bind fun zse => (zcbor.put zse value).bind fun zse => zcbor.putPairs zse rest

def encodeMap (zcbor : ZcborEncoder) (size maxNum : Nat) (pairs : List (List UInt8 × Cbor.Item)) :
    Option (List UInt8) :=
  (zcbor.mapStartEncode (zcbor.stateE 1 size) maxNum).bind fun zse =>
    (zcbor.putPairs zse pairs).bind fun zse => (zcbor.mapEndEncode zse maxNum).map zcbor.encoded

end ZcborEncoder

def IsScalar : Cbor.Item → Prop
  | .uint value => value < 2 ^ 32
  | .text _ => True
  | _ => False

def pairBytes (pair : List UInt8 × Cbor.Item) : List UInt8 := Cbor.encode (.text pair.1) ++ Cbor.encode pair.2

def canonicalMap (pairs : List (List UInt8 × Cbor.Item)) : List UInt8 :=
  Cbor.encodeHead 5 pairs.length ++ pairs.flatMap pairBytes

/-- The encoding of a map fails exactly when the buffer is too small for the canonical encoding. Its head has one
byte, as has that for the number that is given. -/
def ZcborEncoder.Canonical (zcbor : ZcborEncoder) : Prop :=
  ∀ (size maxNum : Nat) (pairs : List (List UInt8 × Cbor.Item)), maxNum < 24 → pairs.length < 24 →
    (∀ pair ∈ pairs, IsScalar pair.2) →
      zcbor.encodeMap size maxNum pairs =
        if (canonicalMap pairs).length ≤ size then some (canonicalMap pairs) else none

/-- A buffer of this size. A map that is open has what is in front of it, and the number of elements there. -/
structure EncodeBuffer where
  bytes : List UInt8
  size : Nat
  elemCount : Nat
  maps : List (List UInt8 × Nat)
  backups : Nat

namespace EncodeBuffer

def append (buffer : EncodeBuffer) (raw : List UInt8) : Option EncodeBuffer :=
  if buffer.bytes.length + raw.length ≤ buffer.size then
    some { buffer with bytes := buffer.bytes ++ raw, elemCount := buffer.elemCount + 1 }
  else
    none

def startMap (buffer : EncodeBuffer) (maxNum : Nat) : Option EncodeBuffer :=
  if buffer.backups = 0 then
    none
  else
    (buffer.append (Cbor.encodeHead 5 maxNum)).map fun started =>
      { started with
        elemCount := 0
        maps := (buffer.bytes, buffer.elemCount) :: buffer.maps
        backups := buffer.backups - 1 }

-- The head is written once more, and what follows it is moved to its end.
def endMap (buffer : EncodeBuffer) (maxNum : Nat) : Option EncodeBuffer :=
  match buffer.maps with
  | [] => none
  | (front, elemCount) :: maps =>
    let head := Cbor.encodeHead 5 (buffer.elemCount / 2)
    let reserved := (Cbor.encodeHead 5 maxNum).length
    if reserved < head.length then
      none
    else
      some { buffer with
        bytes := front ++ head ++ buffer.bytes.drop (front.length + reserved)
        elemCount := elemCount + 1
        maps := maps
        backups := buffer.backups + 1 }

end EncodeBuffer

@[reducible] def bufferEncoder : ZcborEncoder where
  State := EncodeBuffer
  stateE backups size := ⟨[], size, 0, [], backups⟩
  mapStartEncode := EncodeBuffer.startMap
  mapEndEncode := EncodeBuffer.endMap
  tstrPut buffer text := buffer.append (Cbor.encode (.text text))
  uint32Put buffer value := if value < 2 ^ 32 then buffer.append (Cbor.encode (.uint value)) else none
  encoded buffer := buffer.bytes

section Buffers

variable {buffer : EncodeBuffer}

theorem append_eq_none {raw : List UInt8} (small : buffer.size < buffer.bytes.length + raw.length) :
    buffer.append raw = none := if_neg (by omega)

theorem append_eq_some {raw : List UInt8} (fits : buffer.bytes.length + raw.length ≤ buffer.size) :
    buffer.append raw = some { buffer with bytes := buffer.bytes ++ raw, elemCount := buffer.elemCount + 1 } :=
  if_pos fits

theorem put_scalar {item : Cbor.Item} (scalar : IsScalar item) :
    bufferEncoder.put buffer item = buffer.append (Cbor.encode item) := by
  cases item with
  | uint value => exact if_pos scalar
  | text text => rfl
  | bytes value => exact scalar.elim
  | array items => exact scalar.elim

theorem putPairs_buffer (pairs : List (List UInt8 × Cbor.Item)) (scalars : ∀ pair ∈ pairs, IsScalar pair.2)
    (within : buffer.bytes.length ≤ buffer.size) :
    bufferEncoder.putPairs buffer pairs =
      if buffer.bytes.length + (pairs.flatMap pairBytes).length ≤ buffer.size then
        some { buffer with
          bytes := buffer.bytes ++ pairs.flatMap pairBytes
          elemCount := buffer.elemCount + 2 * pairs.length }
      else
        none := by
  induction pairs generalizing buffer with
  | nil => simp [ZcborEncoder.putPairs, within]
  | cons pair rest ih =>
    obtain ⟨label, value⟩ := pair
    obtain ⟨scalar, scalars⟩ := List.forall_mem_cons.mp scalars
    have total : (((label, value) :: rest).flatMap pairBytes).length =
        (Cbor.encode (.text label)).length + (Cbor.encode value).length + (rest.flatMap pairBytes).length := by
      rw [List.flatMap_cons, List.length_append, pairBytes, List.length_append]
    have puts : bufferEncoder.putPairs buffer ((label, value) :: rest) =
        (buffer.append (Cbor.encode (.text label))).bind fun buffer =>
          (bufferEncoder.put buffer value).bind fun buffer => bufferEncoder.putPairs buffer rest := rfl
    rw [puts, total]
    by_cases first : buffer.bytes.length + (Cbor.encode (.text label)).length ≤ buffer.size
    · simp only [append_eq_some first, put_scalar scalar, Option.bind_some]
      by_cases second : buffer.bytes.length + (Cbor.encode (.text label)).length + (Cbor.encode value).length ≤
          buffer.size
      · rw [append_eq_some (by simpa using second), Option.bind_some,
          ih scalars (by simpa [Nat.add_assoc] using second)]
        simp only [List.length_append, List.flatMap_cons, pairBytes, List.append_assoc, List.length_cons,
          Nat.add_assoc, Nat.mul_add]
        congr 3
        omega
      · rw [append_eq_none (by simp; omega), if_neg (by omega), Option.bind_none]
    · rw [append_eq_none (by omega), if_neg (by omega), Option.bind_none]

theorem bufferEncoder_canonical : bufferEncoder.Canonical := by
  intro size maxNum pairs small few scalars
  have headLength := Cbor.encodeHead_length_small 5 pairs.length few
  have maxLength := Cbor.encodeHead_length_small 5 maxNum small
  have total : (canonicalMap pairs).length = 1 + (pairs.flatMap pairBytes).length := by
    rw [canonicalMap, List.length_append, headLength]
  have start : bufferEncoder.mapStartEncode (bufferEncoder.stateE 1 size) maxNum =
      if 1 ≤ size then some ⟨Cbor.encodeHead 5 maxNum, size, 0, [([], 0)], 0⟩ else none := by
    simp only [bufferEncoder, EncodeBuffer.startMap, EncodeBuffer.append, maxLength]
    split_ifs <;> simp_all
  rw [ZcborEncoder.encodeMap, start, total]
  by_cases space : 1 ≤ size
  · rw [if_pos space, Option.bind_some, putPairs_buffer pairs scalars (by simpa [maxLength] using space)]
    simp only [maxLength]
    split_ifs
    · simp [EncodeBuffer.endMap, maxLength, headLength, canonicalMap]
    · rfl
  · rw [if_neg space, if_neg (by omega), Option.bind_none]

end Buffers

end Pouch
