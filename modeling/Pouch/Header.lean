import Pouch.EntryWriter
import Pouch.Saead.State
import Pouch.Shared.Cbor

set_option autoImplicit false

namespace Pouch

open ByteMemory

-- `struct pouch_header`, with the sizes that the CDDL gives to strings and integers.
inductive HeaderSessionId where
  | random (value : Bytes 16)
  | sequential (tag : Bytes 8) (seq : UInt64)

structure HeaderSession where
  id : HeaderSessionId
  initiator : PouchRole
  algorithm : AlgorithmInfo
  maxBlockSizeLog : UInt8
  certRef : Bytes 6

inductive HeaderEncryption where
  | plaintext (id : List UInt8)
  | saead (session : HeaderSession) (pouchId : UInt16)

structure PouchHeader where
  version : UInt8
  encryption : HeaderEncryption

section Cddl

def AlgorithmInfo.number : AlgorithmInfo → Nat
  | .chacha20Poly1305 => 1
  | .aesGcm => 2

def PouchRole.number : PouchRole → Nat
  | .device => 0
  | .server => 1

def HeaderSessionId.item : HeaderSessionId → Cbor.Item
  | .random value => .array [.bytes value.val]
  | .sequential tag seq => .array [.bytes tag.val, .uint seq.toNat]

def HeaderSession.item (session : HeaderSession) : Cbor.Item :=
  .array [session.id.item, .uint session.initiator.number, .uint session.algorithm.number,
    .uint session.maxBlockSizeLog.toNat, .bytes session.certRef.val]

def HeaderEncryption.item : HeaderEncryption → Cbor.Item
  | .plaintext id => .array [.uint 0, .text id]
  | .saead session pouchId => .array [.uint 1, session.item, .uint pouchId.toNat]

/-- `header.cddl`. -/
def PouchHeader.item (header : PouchHeader) : Cbor.Item :=
  .array [.uint header.version.toNat, header.encryption.item]

/-- The code generated from the CDDL. -/
structure HeaderCodec where
  cborEncodePouchHeader : PouchHeader → Nat → Option (List UInt8)
  cborDecodePouchHeader : List UInt8 → Option (PouchHeader × Nat)

/-- The encoder writes the canonical form and fails when there is no room for it. The decoder takes the
canonical item at the front of its input if the CDDL describes it, and reports its length. -/
structure HeaderCodec.FollowsCddl (codec : HeaderCodec) : Prop where
  encodes : ∀ header maxlen, codec.cborEncodePouchHeader header maxlen =
    if (Cbor.encode header.item).length ≤ maxlen then some (Cbor.encode header.item) else none
  decodes : ∀ header raw rest, Cbor.decode raw = some (header.item, rest) →
    codec.cborDecodePouchHeader raw = some (header, raw.length - rest.length)

end Cddl

def deviceIdMaxLen : Nat := 32

def pouchHeaderVersion : UInt8 := 1

-- `crypto_init` of a build without encryption.
def cryptoInitPlaintext (deviceId : Option CString) : Except Errno CString :=
  match deviceId with
  | none => .error .einval
  | some deviceId => if deviceIdMaxLen < deviceId.bytes.length then .error .einval else .ok deviceId

/-- What `crypto_header_get` works on: the device ID, or the uplink session and the result of
`cert_ref_get`. -/
inductive HeaderSource (Key : Type) where
  | plaintext (deviceId : CString)
  | saead (uplink : Session Key) (certRef : Option (Bytes 6))

section Model

variable {Key : Type} (cfg : Config)

def SessionId.headerId (id : SessionId) : HeaderSessionId :=
  match id.value with
  | .sequential tag seqnum => .sequential tag seqnum
  | .random value => .random value

def uplinkHeaderGet (uplink : Session Key) (certRef : Option (Bytes 6)) : Except Errno HeaderEncryption :=
  if uplink.flags.active then
    match certRef with
    | none => .error .ebusy
    | some certRef =>
      let session : HeaderSession :=
        { id := uplink.id.headerId
          initiator := .device
          algorithm := if uplink.algorithm = .chacha20Poly1305 then .chacha20Poly1305 else .aesGcm
          maxBlockSizeLog := UInt8.ofNat cfg.maxBlockPayloadSizeLog
          certRef := certRef }
      .ok (.saead session uplink.pouch.id)
  else
    .error .enotconn

def HeaderSource.headerGet : HeaderSource Key → Except Errno HeaderEncryption
  | .plaintext deviceId => .ok (.plaintext deviceId.bytes)
  | .saead uplink certRef => uplinkHeaderGet cfg uplink certRef

-- POUCH_HEADER_MAX_LEN of the two builds.
def HeaderSource.maxLen : HeaderSource Key → Nat
  | .plaintext _ => 2 + 3 + deviceIdMaxLen
  | .saead _ _ => 16 + 16 + 6

variable (codec : HeaderCodec)

namespace Header

-- `none` for any error.
def writeHeader (source : HeaderSource Key) (buf : PouchBuf) (maxlen : Nat) : Option PouchBuf :=
  match source.headerGet cfg with
  | .error _ => none
  | .ok encryption =>
    match codec.cborEncodePouchHeader ⟨pouchHeaderVersion, encryption⟩ maxlen with
    | none => none
    | some encoded => some (bufClaim (bufPut buf buf.bytes encoded) encoded.length).2

def pouchHeaderCreate (source : HeaderSource Key) (malloc : Option Memory) : Option PouchBuf :=
  match bufAlloc malloc with
  | none => none
  | some header => writeHeader cfg codec source header source.maxLen

end Header

end Model

end Pouch
