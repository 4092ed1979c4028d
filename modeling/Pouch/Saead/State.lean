import Pouch.Saead.Session
import Pouch.Shared.History

set_option autoImplicit false

namespace Pouch

open ByteMemory

def SessionId.isServerSequential (id : SessionId) : Bool :=
  match id.initiator, id.value with
  | .server, .sequential _ _ => true
  | _, _ => false

def SessionId.seqnum (id : SessionId) : UInt64 :=
  match id.value with
  | .sequential _ seqnum => seqnum
  | .random _ => 0

-- The state of `downlink.c` beside the session: what replay protection has seen of the server.
structure ServerSeen where
  seqnum : UInt64
  pouchId : UInt16

structure Saead (Key : Type) where
  uplink : Session Key
  downlink : Session Key
  server : ServerSeen

-- The decoded header. Strings come with whatever length was received.
inductive SessionIdInfo where
  | random (value : List UInt8)
  | sequential (tag : List UInt8) (seq : UInt64)

inductive AlgorithmInfo where
  | aesGcm
  | chacha20Poly1305

structure SessionInfo where
  id : SessionIdInfo
  initiator : PouchRole
  algorithm : AlgorithmInfo
  maxBlockSizeLog : UInt8

inductive EncryptionInfo where
  | plaintext (id : List UInt8)
  | saead (session : SessionInfo) (pouchId : UInt16)

/-- The outcomes of the key functions of one call: `session_key_generate`, and `psa_copy_key` of a
key. -/
structure KeySource (Key : Type) where
  sessionKeyGenerate : SessionId → Algorithm → Nat → Option Key
  psaCopyKey : Key → Option Key

section Model

variable {Key : Type} (cfg : Config)

def unstartedSession : Session Key where
  id := ⟨.device, .sequential (Bytes.zero 8) 0⟩
  flags := .clear
  algorithm := .none
  key := none
  pouch := ⟨0, 0, Bytes.zero 16⟩

def Saead.boot : Saead Key := ⟨unstartedSession, unstartedSession, ⟨0, 0⟩⟩

def uplinkSessionStart (uplink : Session Key) (algorithm : Algorithm) (random : Option (Bytes 16))
    (keys : KeySource Key) : Status × Session Key :=
  let uplink := { uplink with flags := .clear }
  match random with
  -- The ID is not read again as long as the flags are clear.
  | none => (some .eio, uplink)
  | some value =>
    let id : SessionId := ⟨.device, .random value⟩
    -- A NULL key is not noticed: the status of the ID generation is checked once more instead.
    let key := keys.sessionKeyGenerate id algorithm cfg.maxBlockPayloadSizeLog
    (none,
      { uplink with
        id := id
        key := key
        algorithm := algorithm
        pouch := { uplink.pouch with id := 0 }
        flags := ⟨true, true, false⟩ })

def uplinkPouchStart (uplink : Session Key) : Status × Session Key :=
  sessionPouchStart uplink (uplink.pouch.id + 1)

def uplinkEncryptBlock (malloc : Option Memory) (psa : PsaAead Key) (uplink : Session Key)
    (block : PouchBuf) : BlockOutcome Key :=
  if uplink.flags.active then
    sessionEncryptBlock cfg malloc psa uplink block
  else
    uplink.fail none

def uplinkSessionMatches (uplink : Session Key) (id : SessionId) (maxBlockSizeLog : UInt8)
    (algorithm : Algorithm) : Bool :=
  uplink.flags.valid && id = uplink.id && maxBlockSizeLog.toNat = cfg.maxBlockPayloadSizeLog &&
    uplink.algorithm = algorithm

def uplinkSessionKeyCopy (uplink : Session Key) (keys : KeySource Key) : Option Key :=
  if uplink.flags.valid then uplink.key.bind keys.psaCopyKey else none

def isValidDownlink (state : Saead Key) (id : SessionId) (algorithm : Algorithm) : Bool :=
  if state.downlink.flags.valid then
    if state.downlink.id = id ∧ state.downlink.algorithm ≠ algorithm then
      false
    else
      !(id.isServerSequential && decide (id.seqnum ≤ state.server.seqnum))
  else
    true

-- The key of a downlink session: a copy of the uplink key, or a new one. `ok none` is NULL.
def downlinkSessionKey (state : Saead Key) (id : SessionId) (algorithm : Algorithm)
    (maxBlockSizeLog : UInt8) (keys : KeySource Key) : Except Errno (Option Key) :=
  match id.initiator, id.value with
  | .device, .random _ => .error .ebadmsg
  | .device, .sequential _ _ =>
    if uplinkSessionMatches cfg state.uplink id maxBlockSizeLog algorithm then
      .ok (uplinkSessionKeyCopy state.uplink keys)
    else
      .error .ebadmsg
  | .server, _ => .ok (keys.sessionKeyGenerate id algorithm maxBlockSizeLog.toNat)

def downlinkSessionStart (state : Saead Key) (id : SessionId) (algorithm : Algorithm)
    (maxBlockSizeLog : UInt8) (keys : KeySource Key) : Status × Saead Key :=
  if isValidDownlink state id algorithm then
    match downlinkSessionKey cfg state id algorithm maxBlockSizeLog keys with
    | .error err => (some err, state)
    | .ok none => (some .eio, state)
    | .ok (some key) =>
      let downlink :=
        { state.downlink with
          flags := ⟨false, true, false⟩
          pouch := { state.downlink.pouch with id := 0 }
          algorithm := algorithm
          key := some key
          id := id }
      (none, { state with downlink := downlink })
  else
    (some .ebadmsg, state)

def downlinkPouchStart (state : Saead Key) (id : UInt16) : Status × Saead Key :=
  if state.downlink.flags.hasPouch ∧ id ≤ state.server.pouchId then
    (some .ebadmsg, state)
  else
    let (status, downlink) := sessionPouchStart state.downlink id
    (status, { state with downlink := downlink })

-- `none` when a string does not have the length of its field.
def sessionIdOf (session : SessionInfo) : Option SessionId :=
  match session.id with
  | .random value =>
    if length : value.length = 16 then some ⟨session.initiator, .random ⟨value, length⟩⟩ else none
  | .sequential tag seq =>
    if length : tag.length = 8 then
      some ⟨session.initiator, .sequential ⟨tag, length⟩ seq⟩
    else
      none

def AlgorithmInfo.algorithm : AlgorithmInfo → Algorithm
  | .aesGcm => .gcm
  | .chacha20Poly1305 => .chacha20Poly1305

def cryptoDownlinkStart (state : Saead Key) (info : EncryptionInfo) (keys : KeySource Key) :
    Status × Saead Key :=
  match info with
  | .plaintext _ => (some .enotsup, state)
  | .saead session pouchId =>
    match sessionIdOf session with
    | none => (some .einval, state)
    | some id =>
      match downlinkSessionStart cfg state id session.algorithm.algorithm session.maxBlockSizeLog
        keys with
      | (some err, state) => (some err, state)
      | (none, state) => downlinkPouchStart state pouchId

def downlinkBlockDecrypt (malloc : Option Memory) (psa : PsaAead Key) (state : Saead Key)
    (block : PouchBuf) : Option PouchBuf × Saead Key :=
  let outcome := sessionDecryptBlock cfg malloc psa state.downlink block
  match outcome.block with
  | none => (none, { state with downlink := outcome.session })
  | some decrypted =>
    let downlink :=
      { outcome.session with flags := { outcome.session.flags with valid := true, hasPouch := true } }
    let seqnum := if downlink.id.isServerSequential then downlink.id.seqnum else state.server.seqnum
    (some decrypted,
      { state with downlink := downlink, server := ⟨seqnum, downlink.pouch.id⟩ })

def cryptoSessionEnd (state : Saead Key) : Saead Key :=
  { state with uplink := sessionEnd state.uplink, downlink := sessionEnd state.downlink }

-- The calls into the crypto layer, each with the outcomes of what it calls in turn.
inductive SaeadOp (Key : Type) where
  | sessionStart (algorithm : Algorithm) (random : Option (Bytes 16)) (keys : KeySource Key)
  | pouchStart
  | encryptBlock (block : PouchBuf) (malloc : Option Memory) (psa : PsaAead Key)
  | downlinkStart (info : EncryptionInfo) (keys : KeySource Key)
  | decryptBlock (block : PouchBuf) (malloc : Option Memory) (psa : PsaAead Key)
  | sessionEnd

inductive SaeadEvent (Key : Type) where
  -- An uplink session got its key.
  | keyed (key : Option Key)
  -- `psa_aead_encrypt` succeeded.
  | encrypted (call : AeadCall Key)
  -- A downlink header was accepted.
  | accepted (id : SessionId) (pouchId : UInt16)
  | decrypted (id : SessionId) (pouchId : UInt16)

def saeadStep (state : Saead Key) : SaeadOp Key → Saead Key × List (SaeadEvent Key)
  | .sessionStart algorithm random keys =>
    let (status, uplink) := uplinkSessionStart cfg state.uplink algorithm random keys
    ({ state with uplink := uplink }, if status = none then [.keyed uplink.key] else [])
  | .pouchStart =>
    ({ state with uplink := (uplinkPouchStart state.uplink).2 }, [])
  | .encryptBlock block malloc psa =>
    let outcome := uplinkEncryptBlock cfg malloc psa state.uplink block
    ({ state with uplink := outcome.session }, outcome.call.toList.map .encrypted)
  | .downlinkStart info keys =>
    let (status, next) := cryptoDownlinkStart cfg state info keys
    (next, if status = none then [.accepted next.downlink.id next.downlink.pouch.id] else [])
  | .decryptBlock block malloc psa =>
    let (decrypted, next) := downlinkBlockDecrypt cfg malloc psa state block
    (next, if decrypted.isSome then [.decrypted next.downlink.id next.downlink.pouch.id] else [])
  | .sessionEnd => (cryptoSessionEnd state, [])

end Model

section Specs

variable {Key : Type} {cfg : Config} {state : Saead Key}

def Saead.restarted (state : Saead Key) (id : SessionId) (algorithm : Algorithm) (key : Key)
    (pouchId : UInt16) : Saead Key :=
  { state with
    downlink :=
      { id := id
        flags := ⟨false, true, false⟩
        algorithm := algorithm
        key := some key
        pouch := ⟨pouchId, 0, state.downlink.pouch.ad⟩ } }

theorem downlinkPouchStart_started (id : UInt16)
    (fresh : state.downlink.flags = ⟨false, true, false⟩) :
    downlinkPouchStart state id =
      (none, { state with
        downlink :=
          { state.downlink with pouch := { state.downlink.pouch with id := id, blockIndex := 0 } } }) := by
  simp [downlinkPouchStart, sessionPouchStart, fresh]

theorem cryptoDownlinkStart_saead (session : SessionInfo) (pouchId : UInt16) (keys : KeySource Key)
    (id : SessionId) (parsed : sessionIdOf session = some id) :
    cryptoDownlinkStart cfg state (.saead session pouchId) keys =
      if isValidDownlink state id session.algorithm.algorithm then
        match downlinkSessionKey cfg state id session.algorithm.algorithm session.maxBlockSizeLog
          keys with
        | .error err => (some err, state)
        | .ok none => (some .eio, state)
        | .ok (some key) => (none, state.restarted id session.algorithm.algorithm key pouchId)
      else
        (some .ebadmsg, state) := by
  simp only [cryptoDownlinkStart, parsed, downlinkSessionStart]
  split_ifs with valid
  · cases downlinkSessionKey cfg state id session.algorithm.algorithm session.maxBlockSizeLog keys with
    | error err => rfl
    | ok sessionKey =>
      cases sessionKey with
      | none => rfl
      | some key => exact downlinkPouchStart_started pouchId rfl
  · rfl

theorem cryptoDownlinkStart_cases (cfg : Config) (state : Saead Key) (info : EncryptionInfo)
    (keys : KeySource Key) :
    (∃ err, cryptoDownlinkStart cfg state info keys = (some err, state)) ∨
    ∃ session pouchId id key, info = .saead session pouchId ∧ sessionIdOf session = some id ∧
      isValidDownlink state id session.algorithm.algorithm = true ∧
      cryptoDownlinkStart cfg state info keys =
        (none, state.restarted id session.algorithm.algorithm key pouchId) := by
  cases info with
  | plaintext _ => exact .inl ⟨.enotsup, rfl⟩
  | saead session pouchId =>
    cases parsed : sessionIdOf session with
    | none => exact .inl ⟨.einval, by simp [cryptoDownlinkStart, parsed]⟩
    | some id =>
      rw [cryptoDownlinkStart_saead session pouchId keys id parsed]
      split_ifs with valid
      · cases downlinkSessionKey cfg state id session.algorithm.algorithm session.maxBlockSizeLog
          keys with
        | error err => exact .inl ⟨err, rfl⟩
        | ok sessionKey =>
          cases sessionKey with
          | none => exact .inl ⟨.eio, rfl⟩
          | some key => exact .inr ⟨session, pouchId, id, key, rfl, parsed, valid, rfl⟩
      · exact .inl ⟨.ebadmsg, rfl⟩

theorem downlinkBlockDecrypt_cases (cfg : Config) (state : Saead Key) (block : PouchBuf)
    (malloc : Option Memory) (psa : PsaAead Key) :
    downlinkBlockDecrypt cfg malloc psa state block = (none, state) ∨
    ∃ buf next, downlinkBlockDecrypt cfg malloc psa state block = (some buf, next) ∧
      next.downlink.id = state.downlink.id ∧ next.downlink.pouch.id = state.downlink.pouch.id ∧
      next.downlink.flags.valid = true ∧
      next.server.seqnum = if state.downlink.id.isServerSequential then state.downlink.id.seqnum
        else state.server.seqnum := by
  rcases openBlock_session cfg .server malloc psa state.downlink block with
    ⟨same, failed⟩ | ⟨tag, buf, next, opened⟩
  · left
    simp only [downlinkBlockDecrypt, sessionDecryptBlock, failed, same]
  · right
    simp only [downlinkBlockDecrypt, sessionDecryptBlock, opened, next]
    exact ⟨_, _, rfl, rfl, rfl, rfl, rfl⟩

theorem cryptoDownlinkStart_uplink (cfg : Config) (state : Saead Key) (info : EncryptionInfo)
    (keys : KeySource Key) :
    (cryptoDownlinkStart cfg state info keys).2.uplink = state.uplink := by
  rcases cryptoDownlinkStart_cases cfg state info keys with ⟨err, refused⟩ | ⟨_, _, _, _, _, _, _, accepted⟩
  · rw [refused]
  · rw [accepted]
    rfl

theorem downlinkBlockDecrypt_uplink (cfg : Config) (state : Saead Key) (block : PouchBuf)
    (malloc : Option Memory) (psa : PsaAead Key) :
    (downlinkBlockDecrypt cfg malloc psa state block).2.uplink = state.uplink := by
  simp only [downlinkBlockDecrypt]
  split <;> rfl

end Specs

end Pouch
