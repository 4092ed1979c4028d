import Pouch.Saead.State
import Pouch.Shared.Base64
import Pouch.Shared.Cbor

set_option autoImplicit false

/-!
# The info string of a session key

The parameters of a session go into the derivation of its key as a text. Different parameters have different
texts, and each fits its buffer to the last byte.
-/

namespace Pouch

def sessionIdLen : Nat := 16

-- BASE64_STRLEN, without the terminator.
def base64Strlen (bufLen : Nat) : Nat := 4 * ((bufLen + 2) / 3)

def infoMaxLen : Nat := 12 + base64Strlen sessionIdLen + 1

-- The bytes of the union on a little-endian target.
def SessionIdValue.bytes : SessionIdValue → List UInt8
  | .sequential tag seqnum => tag.val ++ (Cbor.wordBytes 8 seqnum.toNat).reverse
  | .random value => value.val

-- `base64_encode`, which needs room for a terminator too.
def base64Encode (room : Nat) (bytes : List UInt8) : Option (List UInt8) :=
  if room < (Base64.encode bytes).length + 1 then none else some (Base64.encode bytes)

def hexChar (value : Nat) : UInt8 := UInt8.ofNat (if value < 10 then 0x30 + value else 0x61 + (value - 10))

-- "E0:%c:%s:C%c%c:%02x"; `none` is -EIO.
def sessionKeyInfoBuild (id : SessionId) (algorithm : Algorithm) (maxBlockSizeLog : UInt8) : Option (List UInt8) :=
  (base64Encode (base64Strlen sessionIdLen + 1) id.value.bytes).map fun sessionId =>
    [0x45, 0x30, 0x3a, if id.initiator = .device then 0x44 else 0x53, 0x3a] ++ sessionId ++
      [0x3a, 0x43, if algorithm = .chacha20Poly1305 then 0x43 else 0x41,
        match id.value with
        | .sequential _ _ => 0x53
        | .random _ => 0x52,
        0x3a, hexChar (maxBlockSizeLog.toNat / 16), hexChar (maxBlockSizeLog.toNat % 16)]

theorem SessionIdValue.bytes_length (value : SessionIdValue) : value.bytes.length = sessionIdLen := by
  cases value with
  | sequential tag seqnum => simp [bytes, tag.property, sessionIdLen]
  | random value => exact value.property

def SessionIdValue.isSequential : SessionIdValue → Bool
  | .sequential _ _ => true
  | .random _ => false

theorem SessionIdValue.bytes_inj {left right : SessionIdValue} (kind : left.isSequential = right.isSequential)
    (same : left.bytes = right.bytes) : left = right := by
  cases left with
  | sequential tag seqnum =>
    cases right with
    | sequential tag' seqnum' =>
      obtain ⟨tags, numbers⟩ := List.append_inj same (tag.property.trans tag'.property.symm)
      have values := congrArg Cbor.wordValue (List.reverse_inj.mp numbers)
      have bound (number : UInt64) : number.toNat < 256 ^ 8 := number.toNat_lt
      rw [Cbor.wordValue_wordBytes _ _ (bound _), Cbor.wordValue_wordBytes _ _ (bound _)] at values
      rw [Subtype.ext tags, UInt64.toNat_inj.mp values]
    | random value => simp [isSequential] at kind
  | random value =>
    cases right with
    | sequential tag seqnum => simp [isSequential] at kind
    | random value' => rw [Subtype.ext same]

theorem hexChar_inj {left right : Nat} (leftSmall : left < 16) (rightSmall : right < 16)
    (same : hexChar left = hexChar right) : left = right := by
  have values := congrArg UInt8.toNat same
  simp only [hexChar, UInt8.toNat_ofNat'] at values
  split_ifs at values <;> omega

theorem sessionId_text (value : SessionIdValue) :
    (Base64.encode value.bytes).length = base64Strlen sessionIdLen ∧
      base64Encode (base64Strlen sessionIdLen + 1) value.bytes = some (Base64.encode value.bytes) := by
  have length := Base64.encode_length value.bytes
  rw [value.bytes_length] at length
  exact ⟨length, by rw [base64Encode, length, base64Strlen, if_neg (by omega)]⟩

/-- The info strings of two sessions are the same only if all their parameters are, and with its terminator
every one of them fits the buffer. -/
theorem session_key_info_unambiguous (id id' : SessionId) (algorithm algorithm' : AlgorithmInfo)
    (maxBlockSizeLog maxBlockSizeLog' : UInt8) :
    (sessionKeyInfoBuild id algorithm.algorithm maxBlockSizeLog =
        sessionKeyInfoBuild id' algorithm'.algorithm maxBlockSizeLog' ↔
      id = id' ∧ algorithm = algorithm' ∧ maxBlockSizeLog = maxBlockSizeLog') ∧
    ∃ info, sessionKeyInfoBuild id algorithm.algorithm maxBlockSizeLog = some info ∧
      info.length + 1 ≤ infoMaxLen := by
  obtain ⟨length, encoded⟩ := sessionId_text id.value
  obtain ⟨length', encoded'⟩ := sessionId_text id'.value
  constructor
  · constructor
    · intro same
      simp only [sessionKeyInfoBuild, encoded, encoded', Option.map_some, Option.some.injEq] at same
      -- Every field has its place, whatever the others are.
      obtain ⟨front, back⟩ := List.append_inj same (by simp [length, length'])
      obtain ⟨start, idText⟩ := List.append_inj front rfl
      simp only [List.cons.injEq] at start back
      have initiators : id.initiator = id'.initiator := by
        cases left : id.initiator <;> cases right : id'.initiator <;> simp_all
      have algorithms : algorithm = algorithm' := by
        cases algorithm <;> cases algorithm' <;> simp_all [AlgorithmInfo.algorithm]
      have kinds : id.value.isSequential = id'.value.isSequential := by
        cases left : id.value <;> cases right : id'.value <;> simp_all [SessionIdValue.isSequential]
      have values := SessionIdValue.bytes_inj kinds (Base64.encode_injective idText)
      have small := maxBlockSizeLog.toNat_lt
      have small' := maxBlockSizeLog'.toNat_lt
      have high := hexChar_inj (by omega) (by omega) back.2.2.2.2.2.1
      have low := hexChar_inj (by omega) (by omega) back.2.2.2.2.2.2.1
      refine ⟨?_, algorithms, UInt8.toNat_inj.mp (by omega)⟩
      cases id
      cases id'
      simp only at initiators values
      rw [initiators, values]
    · rintro ⟨rfl, rfl, rfl⟩
      rfl
  · refine ⟨_, by simp only [sessionKeyInfoBuild, encoded, Option.map_some]; rfl, ?_⟩
    simp only [List.length_append, length, List.length_cons, List.length_nil, infoMaxLen]
    omega

end Pouch
