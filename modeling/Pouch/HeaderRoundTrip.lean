import Pouch.DownlinkReassembly
import Pouch.Header

set_option autoImplicit false

namespace Pouch

open ByteMemory Cbor

section Lengths

theorem plaintext_length (id : List UInt8) :
    (encode (PouchHeader.item ⟨pouchHeaderVersion, .plaintext id⟩)).length =
      4 + (encodeHead 3 id.length).length + id.length := by
  have array : (encodeHead 4 2).length = 1 := rfl
  have version : (encodeHead 0 pouchHeaderVersion.toNat).length = 1 := rfl
  have plaintext : (encodeHead 0 0).length = 1 := rfl
  simp only [PouchHeader.item, HeaderEncryption.item, encodeAll, encode, List.length_append,
    List.length_cons, List.length_nil, Nat.zero_add, Nat.reduceAdd, array, version, plaintext]
  omega

theorem plaintext_fits_iff (id : List UInt8) :
    (encode (PouchHeader.item ⟨pouchHeaderVersion, .plaintext id⟩)).length ≤ 2 + 3 + deviceIdMaxLen ↔
      id.length < deviceIdMaxLen := by
  rw [plaintext_length, encodeHead_length, deviceIdMaxLen]
  split_ifs <;> omega

theorem headerSessionId_length (id : HeaderSessionId) : (encode id.item).length ≤ 19 := by
  cases id with
  | random value =>
    have length := value.property
    have array : (encodeHead 4 1).length = 1 := rfl
    have head : (encodeHead 2 value.val.length).length = 1 := encodeHead_length_small _ _ (by omega)
    simp only [HeaderSessionId.item, encodeAll, encode, List.length_append, List.length_cons,
      List.length_nil, Nat.zero_add, array, head]
    omega
  | sequential tag seq =>
    have length := tag.property
    have array : (encodeHead 4 2).length = 1 := rfl
    have head : (encodeHead 2 tag.val.length).length = 1 := encodeHead_length_small _ _ (by omega)
    have number : (encodeHead 0 seq.toNat).length ≤ 9 := by
      rw [encodeHead_length]
      split_ifs <;> omega
    simp only [HeaderSessionId.item, encodeAll, encode, List.length_append, List.length_cons,
      List.length_nil, Nat.zero_add, Nat.reduceAdd, array, head]
    omega

theorem headerSession_length (session : HeaderSession) : (encode session.item).length ≤ 31 := by
  have id := headerSessionId_length session.id
  have ref := session.certRef.property
  have array : (encodeHead 4 5).length = 1 := rfl
  have refHead : (encodeHead 2 session.certRef.val.length).length = 1 :=
    encodeHead_length_small _ _ (by omega)
  have initiator : (encodeHead 0 session.initiator.number).length = 1 := by
    cases session.initiator <;> rfl
  have algorithm : (encodeHead 0 session.algorithm.number).length = 1 := by
    cases session.algorithm <;> rfl
  have logBound := session.maxBlockSizeLog.toNat_lt
  have log : (encodeHead 0 session.maxBlockSizeLog.toNat).length ≤ 2 := by
    rw [encodeHead_length]
    split_ifs <;> omega
  simp only [HeaderSession.item, encodeAll, encode, List.length_append, List.length_cons, List.length_nil,
    Nat.zero_add, Nat.reduceAdd, array, refHead, initiator, algorithm]
  omega

theorem saead_length (session : HeaderSession) (pouchId : UInt16) :
    (encode (PouchHeader.item ⟨pouchHeaderVersion, .saead session pouchId⟩)).length ≤ 16 + 16 + 6 := by
  have inner := headerSession_length session
  have bound := pouchId.toNat_lt
  have number : (encodeHead 0 pouchId.toNat).length ≤ 3 := by
    rw [encodeHead_length]
    split_ifs <;> omega
  have array : (encodeHead 4 2).length = 1 := rfl
  have inside : (encodeHead 4 3).length = 1 := rfl
  have version : (encodeHead 0 pouchHeaderVersion.toNat).length = 1 := rfl
  have saead : (encodeHead 0 1).length = 1 := rfl
  simp only [PouchHeader.item, HeaderEncryption.item, encodeAll, encode, List.length_append,
    List.length_cons, List.length_nil, Nat.zero_add, Nat.reduceAdd, array, inside, version, saead]
  omega

end Lengths

section Encodable

theorem HeaderSession.encodable (session : HeaderSession) : session.item.Encodable := by
  have log := session.maxBlockSizeLog.toNat_lt
  have ref := session.certRef.property
  have initiator : session.initiator.number < 2 := by cases session.initiator <;> decide
  have algorithm : session.algorithm.number < 3 := by cases session.algorithm <;> decide
  have id : session.id.item.Encodable := by
    cases session.id with
    | random value =>
      have length := value.property
      simp only [HeaderSessionId.item, Item.Encodable, AllEncodable, List.length_cons, List.length_nil, and_true]
      omega
    | sequential tag seq =>
      have length := tag.property
      have number := seq.toNat_lt
      simp only [HeaderSessionId.item, Item.Encodable, AllEncodable, List.length_cons, List.length_nil, and_true]
      omega
  simp only [HeaderSession.item, Item.Encodable, AllEncodable, List.length_cons, List.length_nil, and_true, id,
    true_and]
  omega

theorem PouchHeader.encodable_saead (version : UInt8) (session : HeaderSession) (pouchId : UInt16) :
    (PouchHeader.item ⟨version, .saead session pouchId⟩).Encodable := by
  have versionBound := version.toNat_lt
  have idBound := pouchId.toNat_lt
  simp only [PouchHeader.item, HeaderEncryption.item, Item.Encodable, AllEncodable, List.length_cons,
    List.length_nil, and_true, session.encodable, true_and]
  omega

theorem PouchHeader.encodable_plaintext (version : UInt8) (id : List UInt8) (short : id.length < 2 ^ 64) :
    (PouchHeader.item ⟨version, .plaintext id⟩).Encodable := by
  have versionBound := version.toNat_lt
  simp only [PouchHeader.item, HeaderEncryption.item, Item.Encodable, AllEncodable, List.length_cons,
    List.length_nil, and_true]
  omega

end Encodable

section RoundTrip

variable {Key : Type} {codec : HeaderCodec}

theorem HeaderCodec.FollowsCddl.decode_encoded (follows : codec.FollowsCddl) (header : PouchHeader)
    (trailing : List UInt8) (encodable : header.item.Encodable) :
    codec.cborDecodePouchHeader (encode header.item ++ trailing) =
      some (header, (encode header.item).length) := by
  have decoded := follows.decodes header _ trailing (decode_encode header.item trailing encodable)
  rwa [List.length_append, Nat.add_sub_cancel] at decoded

theorem pouchHeaderCreate_spec (cfg : Config) (follows : codec.FollowsCddl) (source : HeaderSource Key)
    (fields : HeaderEncryption) (got : source.headerGet cfg = .ok fields) (memory : Memory) :
    if (encode (PouchHeader.item ⟨pouchHeaderVersion, fields⟩)).length ≤ source.maxLen then
      ∃ header, Header.pouchHeaderCreate cfg codec source (some memory) = some header ∧
        header.contents = encode (PouchHeader.item ⟨pouchHeaderVersion, fields⟩)
    else
      Header.pouchHeaderCreate cfg codec source (some memory) = none := by
  simp only [Header.pouchHeaderCreate, Header.writeHeader, bufAlloc, Option.map_some, got, follows.encodes]
  split_ifs with fits
  · refine ⟨_, rfl, ?_⟩
    exact bufWrite_contents ⟨0, memory⟩ _
  · rfl

/-- The header is created within its buffer, and read back with its fields and its length from the
front of whatever was received. -/
def HeaderRoundTrips (cfg : Config) (codec : HeaderCodec) (source : HeaderSource Key)
    (fields : HeaderEncryption) (memory : Memory) : Prop :=
  ∃ header, Header.pouchHeaderCreate cfg codec source (some memory) = some header ∧
    header.bytes ≤ source.maxLen ∧
    ∀ trailing : List UInt8,
      codec.cborDecodePouchHeader (header.contents ++ trailing) =
        some (⟨pouchHeaderVersion, fields⟩, header.bytes) ∧
      ∀ (Crypto : Type) (start : Crypto → PouchHeader → Status × Crypto) (crypto : Crypto) (received : PouchBuf),
        received.contents = header.contents ++ trailing → received.bytes < cfg.sizeRange →
        pouchDownlinkParseHeader cfg ⟨codec.cborDecodePouchHeader, start⟩ crypto (pouchBufviewInit received) =
          match start crypto ⟨pouchHeaderVersion, fields⟩ with
          | (some err, next) => (.error err, next)
          | (none, next) => (.ok header.bytes, next)

-- A device ID leaves one byte of its maximum unused.
def HeaderSource.Fits : HeaderSource Key → Prop
  | .plaintext deviceId => deviceId.bytes.length < deviceIdMaxLen
  | .saead _ _ => True

theorem uplinkHeaderGet_saead (cfg : Config) (uplink : Session Key) (certRef : Option (Bytes 6))
    (fields : HeaderEncryption) (got : uplinkHeaderGet cfg uplink certRef = .ok fields) :
    ∃ session, fields = .saead session uplink.pouch.id := by
  unfold uplinkHeaderGet at got
  by_cases active : uplink.flags.active = true
  next =>
    cases certRef with
    | none => simp [active] at got
    | some certRef =>
      simp only [active, if_true, Except.ok.injEq] at got
      exact ⟨_, got.symm⟩
  next => simp [active] at got

theorem headerGet_fits_iff (cfg : Config) (source : HeaderSource Key) (fields : HeaderEncryption)
    (got : source.headerGet cfg = .ok fields) :
    (encode (PouchHeader.item ⟨pouchHeaderVersion, fields⟩)).length ≤ source.maxLen ↔ source.Fits := by
  cases source with
  | plaintext deviceId =>
    cases got
    exact plaintext_fits_iff deviceId.bytes
  | saead uplink certRef =>
    obtain ⟨session, rfl⟩ := uplinkHeaderGet_saead cfg uplink certRef fields got
    exact iff_of_true (saead_length session uplink.pouch.id) trivial

theorem HeaderSource.encodable (cfg : Config) (source : HeaderSource Key) (fields : HeaderEncryption)
    (got : source.headerGet cfg = .ok fields) (fits : source.Fits) :
    (PouchHeader.item ⟨pouchHeaderVersion, fields⟩).Encodable := by
  cases source with
  | plaintext deviceId =>
    cases got
    have short : deviceId.bytes.length < deviceIdMaxLen := fits
    exact PouchHeader.encodable_plaintext _ _ (Nat.lt_trans short (by decide))
  | saead uplink certRef =>
    obtain ⟨session, rfl⟩ := uplinkHeaderGet_saead cfg uplink certRef fields got
    exact PouchHeader.encodable_saead pouchHeaderVersion session uplink.pouch.id

/-- Every header of an encrypted pouch fits and is read back; without encryption just those with a device
ID below the maximum length. -/
theorem pouch_header_round_trip_iff (cfg : Config) (codec : HeaderCodec) (follows : codec.FollowsCddl)
    (source : HeaderSource Key) (fields : HeaderEncryption) (got : source.headerGet cfg = .ok fields)
    (memory : Memory) :
    HeaderRoundTrips cfg codec source fields memory ↔ source.Fits := by
  have created := pouchHeaderCreate_spec cfg follows source fields got memory
  rw [← headerGet_fits_iff cfg source fields got]
  split_ifs at created with fits
  · refine iff_of_true ?_ fits
    obtain ⟨header, isCreated, contents⟩ := created
    have bytes : header.bytes = (encode (PouchHeader.item ⟨pouchHeaderVersion, fields⟩)).length := by
      rw [← contents, PouchBuf.contents_length]
    have encodable := source.encodable cfg fields got ((headerGet_fits_iff cfg source fields got).mp fits)
    refine ⟨header, isCreated, by rwa [bytes], ?_⟩
    intro trailing
    have decoded := follows.decode_encoded ⟨pouchHeaderVersion, fields⟩ trailing encodable
    rw [← contents, header.contents_length] at decoded
    refine ⟨decoded, ?_⟩
    intro Crypto start crypto received sameBytes small
    rw [parseHeader_eq crypto received small, sameBytes]
    rcases started : start crypto ⟨pouchHeaderVersion, fields⟩ with ⟨_ | err, next⟩
    · simp only [decoded, started]
    · simp only [decoded, started]
  · refine iff_of_false ?_ fits
    rintro ⟨header, isCreated, _⟩
    rw [created] at isCreated
    cases isCreated

end RoundTrip

section Codec

def headerSessionIdOf : Item → Option HeaderSessionId
  | .array [.bytes value] => if size : value.length = 16 then some (.random ⟨value, size⟩) else none
  | .array [.bytes tag, .uint seq] =>
    if size : tag.length = 8 then
      if seq < 2 ^ 64 then some (.sequential ⟨tag, size⟩ (UInt64.ofNat seq)) else none
    else
      none
  | _ => none

def roleOf : Nat → Option PouchRole
  | 0 => some .device
  | 1 => some .server
  | _ => none

def algorithmOf : Nat → Option AlgorithmInfo
  | 1 => some .chacha20Poly1305
  | 2 => some .aesGcm
  | _ => none

def headerSessionOf : Item → Option HeaderSession
  | .array [id, .uint initiator, .uint algorithm, .uint maxBlockSizeLog, .bytes certRef] =>
    match headerSessionIdOf id, roleOf initiator, algorithmOf algorithm with
    | some id, some initiator, some algorithm =>
      if size : certRef.length = 6 then
        if maxBlockSizeLog < 2 ^ 8 then
          some ⟨id, initiator, algorithm, UInt8.ofNat maxBlockSizeLog, ⟨certRef, size⟩⟩
        else
          none
      else
        none
    | _, _, _ => none
  | _ => none

def headerEncryptionOf : Item → Option HeaderEncryption
  | .array [.uint 0, .text id] => some (.plaintext id)
  | .array [.uint 1, session, .uint pouchId] =>
    if pouchId < 2 ^ 16 then (headerSessionOf session).map (.saead · (UInt16.ofNat pouchId)) else none
  | _ => none

def pouchHeaderOf : Item → Option PouchHeader
  | .array [.uint version, encryption] =>
    if version < 2 ^ 8 then (headerEncryptionOf encryption).map (⟨UInt8.ofNat version, ·⟩) else none
  | _ => none

theorem headerSessionIdOf_item (id : HeaderSessionId) : headerSessionIdOf id.item = some id := by
  cases id with
  | random value => simp [HeaderSessionId.item, headerSessionIdOf, value.property]
  | sequential tag seq =>
    have bound := seq.toNat_lt
    simp [HeaderSessionId.item, headerSessionIdOf, tag.property, bound]

theorem headerSessionOf_item (session : HeaderSession) : headerSessionOf session.item = some session := by
  have initiator : roleOf session.initiator.number = some session.initiator := by
    cases session.initiator <;> rfl
  have algorithm : algorithmOf session.algorithm.number = some session.algorithm := by
    cases session.algorithm <;> rfl
  have bound := session.maxBlockSizeLog.toNat_lt
  simp [HeaderSession.item, headerSessionOf, headerSessionIdOf_item, initiator, algorithm,
    session.certRef.property, bound]

theorem pouchHeaderOf_item (header : PouchHeader) : pouchHeaderOf header.item = some header := by
  obtain ⟨version, encryption⟩ := header
  have bound := version.toNat_lt
  have inner : headerEncryptionOf encryption.item = some encryption := by
    cases encryption with
    | plaintext id => rfl
    | saead session pouchId =>
      have idBound := pouchId.toNat_lt
      simp [HeaderEncryption.item, headerEncryptionOf, headerSessionOf_item, idBound]
  simp [PouchHeader.item, pouchHeaderOf, inner, bound]

-- A codec that reads the CDDL literally.
def cddlCodec : HeaderCodec where
  cborEncodePouchHeader := fun header maxlen =>
    if (encode header.item).length ≤ maxlen then some (encode header.item) else none
  cborDecodePouchHeader := fun raw =>
    match decode raw with
    | none => none
    | some (item, rest) => (pouchHeaderOf item).map fun header => (header, raw.length - rest.length)

theorem cddlCodec_follows : cddlCodec.FollowsCddl where
  encodes := fun _ _ => rfl
  decodes := by
    intro header raw rest decoded
    simp [cddlCodec, decoded, pouchHeaderOf_item]

end Codec

def sampleUplink : Session Unit where
  id := ⟨.device, .sequential ⟨List.replicate 8 1, rfl⟩ 0xffffffffffffffff⟩
  flags := ⟨true, true, false⟩
  algorithm := .chacha20Poly1305
  key := some ()
  pouch := ⟨0xffff, 0, Bytes.zero 16⟩

-- The longest header: it fills its buffer.
theorem longest_header_round_trips :
    ∃ fields, HeaderSource.headerGet (defaultConfig .saead) (.saead sampleUplink (some (Bytes.zero 6))) =
        .ok fields ∧
      HeaderRoundTrips (defaultConfig .saead) cddlCodec (.saead sampleUplink (some (Bytes.zero 6))) fields
        (fun _ => 0) := by
  refine ⟨_, rfl, ?_⟩
  apply (pouch_header_round_trip_iff _ _ cddlCodec_follows _ _ rfl _).mpr
  trivial

def longDeviceId : CString := ⟨List.replicate 32 0x61, by simp⟩

/-- A device ID of the maximum length is accepted, and no header can be created for it. -/
theorem longest_device_id_has_no_header :
    cryptoInitPlaintext (some longDeviceId) = .ok longDeviceId ∧
      Header.pouchHeaderCreate (defaultConfig .none) cddlCodec (.plaintext longDeviceId : HeaderSource Unit)
        (some fun _ => 0) = none ∧
      ¬ HeaderRoundTrips (defaultConfig .none) cddlCodec (.plaintext longDeviceId : HeaderSource Unit)
        (.plaintext longDeviceId.bytes) (fun _ => 0) := by
  have uncreated : Header.pouchHeaderCreate (defaultConfig .none) cddlCodec
      (.plaintext longDeviceId : HeaderSource Unit) (some fun _ => 0) = none := rfl
  refine ⟨rfl, uncreated, ?_⟩
  rintro ⟨header, created, _⟩
  rw [uncreated] at created
  cases created

end Pouch
