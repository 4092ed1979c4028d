import Pouch.Block
import Pouch.WireFormat

set_option autoImplicit false

namespace Pouch

open ByteMemory

inductive PouchRole where
  | device
  | server
  deriving DecidableEq, Repr

def PouchRole.byte : PouchRole → UInt8
  | .device => 0
  | .server => 1

-- `psa_algorithm_t`; a session that was never started has none.
inductive Algorithm where
  | none
  | chacha20Poly1305
  | gcm
  deriving DecidableEq, Repr

abbrev Bytes (length : Nat) := { bytes : List UInt8 // bytes.length = length }

def Bytes.zero (length : Nat) : Bytes length := ⟨List.replicate length 0, List.length_replicate⟩

-- Copies to the front of an array, as `memcpy` does.
def Bytes.overwrite {length : Nat} (array : Bytes length) (copied : List UInt8) : Bytes length :=
  ⟨(copied ++ array.val.drop copied.length).take length, by
    have whole := array.property
    simp only [List.length_take, List.length_append, List.length_drop]
    omega⟩

theorem Bytes.overwrite_all {length : Nat} (array : Bytes length) (copied : List UInt8)
    (all : copied.length = length) : (array.overwrite copied).val = copied :=
  List.take_left' all

inductive SessionIdValue where
  | sequential (tag : Bytes 8) (seqnum : UInt64)
  | random (value : Bytes 16)
  deriving DecidableEq

structure SessionId where
  initiator : PouchRole
  value : SessionIdValue
  deriving DecidableEq

structure SessionFlags where
  valid : Bool
  active : Bool
  hasPouch : Bool
  deriving DecidableEq

structure SessionPouch where
  id : UInt16
  blockIndex : UInt32
  ad : Bytes 16
  deriving DecidableEq

/-- `struct session`. A key stands for its material; `none` is PSA_KEY_ID_NULL. -/
structure Session (Key : Type) where
  id : SessionId
  flags : SessionFlags
  algorithm : Algorithm
  key : Option Key
  pouch : SessionPouch

structure AeadCall (Key : Type) where
  key : Key
  algorithm : Algorithm
  nonce : List UInt8
  ad : List UInt8
  input : List UInt8
  deriving DecidableEq

-- The output of `psa_aead_encrypt` or `psa_aead_decrypt`, `none` for every status but success.
abbrev PsaAead (Key : Type) := AeadCall Key → Option (List UInt8)

def SessionFlags.clear : SessionFlags := ⟨false, false, false⟩

section Model

variable {Key : Type} (cfg : Config)

def sessionEnd (session : Session Key) : Session Key :=
  if session.flags.active then
    { session with flags := { session.flags with active := false }, key := none }
  else
    session

def sessionPouchStart (session : Session Key) (pouchId : UInt16) : Status × Session Key :=
  if session.flags.active then
    (none, { session with pouch := { session.pouch with id := pouchId, blockIndex := 0 } })
  else
    (some .ebusy, session)

-- The block index is wider than its field in the nonce.
def nonceGenerate (pouch : SessionPouch) (sender : PouchRole) : List UInt8 :=
  putBe16 pouch.id.toNat ++ putBe16 pouch.blockIndex.toNat ++
    (sender.byte :: List.replicate 7 0)

-- The first block of a pouch has no additional data, the others have the tag before them.
def Session.adArgument (session : Session Key) : List UInt8 :=
  if 0 < session.pouch.blockIndex then session.pouch.ad.val else []

def Session.aeadCall (session : Session Key) (sender : PouchRole) (key : Key) (input : List UInt8) :
    AeadCall Key where
  key := key
  algorithm := session.algorithm
  nonce := nonceGenerate session.pouch sender
  ad := session.adArgument
  input := input

/-- The outcome of a block function: the session, the new buffer or NULL, and the PSA call if it
succeeded. -/
structure BlockOutcome (Key : Type) where
  session : Session Key
  block : Option PouchBuf
  call : Option (AeadCall Key)

def Session.fail (session : Session Key) (call : Option (AeadCall Key)) : BlockOutcome Key :=
  ⟨session, none, call⟩

-- Prepares for the next block, which authenticates the tag of this one.
def Session.advance (session : Session Key) (tag : List UInt8) : Session Key :=
  let pouch :=
    { session.pouch with
      ad := session.pouch.ad.overwrite tag
      blockIndex := session.pouch.blockIndex + 1 }
  { session with pouch := pouch }

def Session.markValid (session : Session Key) : Session Key :=
  { session with flags := { session.flags with valid := true } }

-- `session_encrypt_block` with the role that goes into the nonce as a parameter.
def sealBlock (sender : PouchRole) (malloc : Option Memory) (psa : PsaAead Key)
    (session : Session Key) (block : PouchBuf) : BlockOutcome Key :=
  match bufAlloc malloc with
  | none => session.fail none
  | some encrypted =>
    let (plaintextLen, plaintext) := pouchBufviewReadBe16 cfg (pouchBufviewInit block)
    if plaintextLen ≠ pouchBufviewAvailable cfg plaintext then
      session.fail none
    else
      let encryptedLen := plaintextLen + 16
      let (position, encrypted) := bufClaim (blockSizeWrite encrypted encryptedLen) encryptedLen
      let (start, _) := pouchBufviewRead cfg plaintext plaintextLen
      match session.key with
      | none => session.fail none
      | some key =>
        let call := session.aeadCall sender key
          (load plaintext.memory (start.getD 0) plaintextLen)
        match psa call with
        | none => session.fail none
        | some ciphertext =>
          if ciphertext.length ≠ encryptedLen then
            session.fail (some call)
          else
            let encrypted := bufPut encrypted position ciphertext
            let tag := load encrypted.buf (position + plaintextLen) 16
            ⟨session.advance tag, some encrypted, some call⟩

def sessionEncryptBlock (malloc : Option Memory) (psa : PsaAead Key) (session : Session Key)
    (block : PouchBuf) : BlockOutcome Key :=
  sealBlock cfg .device malloc psa session block

-- `session_decrypt_block`, likewise.
def openBlock (sender : PouchRole) (malloc : Option Memory) (psa : PsaAead Key)
    (session : Session Key) (block : PouchBuf) : BlockOutcome Key :=
  match bufAlloc malloc with
  | none => session.fail none
  | some decrypted =>
    let (ciphertextLen, ciphertext) := pouchBufviewReadBe16 cfg (pouchBufviewInit block)
    if ciphertextLen ≤ 16 ∨ ciphertextLen ≠ pouchBufviewAvailable cfg ciphertext then
      session.fail none
    else
      let payloadLen := ciphertextLen - 16
      let (position, decrypted) := bufClaim (blockSizeWrite decrypted payloadLen) payloadLen
      let (start, tag) := pouchBufviewRead cfg ciphertext payloadLen
      match session.key with
      | none => session.fail none
      | some key =>
        let call := session.aeadCall sender key
          (load ciphertext.memory (start.getD 0) ciphertextLen)
        match psa call with
        | none => session.fail none
        | some plaintext =>
          if plaintext.length ≠ payloadLen then
            session.fail (some call)
          else
            let decrypted := bufPut decrypted position plaintext
            let session := session.advance (pouchBufviewMemcpy cfg tag 16).1
            ⟨session.markValid, some decrypted, some call⟩

def sessionDecryptBlock (malloc : Option Memory) (psa : PsaAead Key) (session : Session Key)
    (block : PouchBuf) : BlockOutcome Key :=
  openBlock cfg .server malloc psa session block

end Model

section Specs

variable {Key : Type} {cfg : Config} {sender : PouchRole} {malloc : Option Memory}
  {psa : PsaAead Key} {session : Session Key} {block : PouchBuf}

theorem sessionEnd_key {key : Key} (held : (sessionEnd session).key = some key) :
    session.key = some key := by
  unfold sessionEnd at held
  split_ifs at held
  exact held

theorem sessionEnd_pouch : (sessionEnd session).pouch = session.pouch := by
  unfold sessionEnd
  split_ifs <;> rfl

theorem claimed_contents (memory : Memory) (size : Nat) (data : List UInt8) (claimed : Nat)
    (fills : data.length = claimed) :
    let claim := bufClaim (blockSizeWrite ⟨0, memory⟩ size) claimed
    (bufPut claim.2 claim.1 data).contents = putBe16 size ++ data := by
  subst fills
  intro claim
  have same : bufPut claim.2 claim.1 data = bufWrite (bufWrite ⟨0, memory⟩ (putBe16 size)) data := rfl
  rw [same, bufWrite_contents, bufWrite_contents]
  rfl

theorem claimed_tail (memory : Memory) (size : Nat) (data : List UInt8) (claimed skipped : Nat)
    (fills : data.length = claimed) (within : skipped ≤ claimed) :
    let claim := bufClaim (blockSizeWrite ⟨0, memory⟩ size) claimed
    load (bufPut claim.2 claim.1 data).buf (claim.1 + skipped) (claimed - skipped) =
      data.drop skipped := by
  intro claim
  have whole := claimed_contents memory size data claimed fills
  have tail := congrArg (List.drop (2 + skipped)) whole
  have bytes : (bufPut claim.2 claim.1 data).bytes = 2 + claimed := rfl
  rw [PouchBuf.contents, bytes, load_drop _ _ _ _ (by omega)] at tail
  rw [← List.drop_drop, List.drop_left' (putBe16_length size)] at tail
  have count : 2 + claimed - (2 + skipped) = claimed - skipped := by omega
  have position : 0 + (2 + skipped) = claim.1 + skipped := Nat.zero_add _
  rw [count, position] at tail
  exact tail

structure Handed (cfg : Config) (block : PouchBuf) : Prop where
  field : 2 ≤ block.bytes
  fits : block.bytes < cfg.sizeRange

theorem Handed.split (handed : Handed cfg block) :
    ∃ high low rest, block.contents = high :: low :: rest := by
  have length := block.contents_length
  have field := handed.field
  match contents : block.contents with
  | [] => simp [contents] at length; omega
  | [_] => simp [contents] at length; omega
  | high :: low :: rest => exact ⟨high, low, rest, rfl⟩

theorem Handed.of_contents (cfg : Config) (size : Nat) (rest : List UInt8)
    (contents : block.contents = putBe16 size ++ rest) (small : rest.length < 2 ^ 31) :
    Handed cfg block := by
  have length := congrArg List.length contents
  have range := cfg.sizeRange_ge
  simp only [PouchBuf.contents_length, List.length_append, putBe16_length] at length
  exact ⟨by omega, by omega⟩

/-- What `sealBlock` can do. A PSA call that succeeds with an output of the wrong length is the
only one that leaves the session as it was. -/
theorem sealBlock_cases (outcome : BlockOutcome Key)
    (result : sealBlock cfg sender malloc psa session block = outcome) :
    (outcome.session = session ∧ outcome.block = none ∧ ∀ call, outcome.call = some call →
      ∃ output, psa call = some output ∧ output.length ≠ call.input.length + 16) ∨
    ∃ key input output buf, session.key = some key ∧
      psa (session.aeadCall sender key input) = some output ∧ output.length = input.length + 16 ∧
      outcome = ⟨session.advance (output.drop input.length), some buf,
        some (session.aeadCall sender key input)⟩ ∧
      buf.contents = putBe16 output.length ++ output := by
  subst result
  unfold sealBlock
  cases malloc with
  | none => exact .inl ⟨rfl, rfl, by simp [bufAlloc, Session.fail]⟩
  | some memory =>
    simp only [bufAlloc, Option.map_some]
    split_ifs with length
    · exact .inl ⟨rfl, rfl, by simp [Session.fail]⟩
    generalize pouchBufviewReadBe16 cfg (pouchBufviewInit block) = read at length ⊢
    obtain ⟨plaintextLen, plaintext⟩ := read
    cases held : session.key with
    | none => exact .inl ⟨rfl, rfl, by simp [Session.fail]⟩
    | some key =>
      simp only
      generalize input : load plaintext.memory
        ((pouchBufviewRead cfg plaintext plaintextLen).1.getD 0) plaintextLen = bytes
      have inputLength : bytes.length = plaintextLen := by rw [← input, load_length]
      cases called : psa (session.aeadCall sender key bytes) with
      | none => exact .inl ⟨rfl, rfl, by simp [Session.fail]⟩
      | some output =>
        simp only
        split_ifs with unexpected
        · refine .inl ⟨rfl, rfl, ?_⟩
          rintro call ⟨⟩
          exact ⟨output, called, by simpa [Session.aeadCall, inputLength] using unexpected⟩
        · have outputLength : output.length = plaintextLen + 16 := by simpa using unexpected
          have contents := claimed_contents memory (plaintextLen + 16) output _ outputLength
          have tag := claimed_tail memory (plaintextLen + 16) output _ plaintextLen outputLength
            (by omega)
          rw [Nat.add_sub_cancel_left] at tag
          refine .inr ⟨key, bytes, output, _, rfl, called, by omega, ?_,
            contents.trans (by rw [outputLength])⟩
          rw [inputLength, ← tag]

theorem sealBlock_framed (cfg : Config) (memory : Memory) (payload output : List UInt8) (key : Key)
    (small : payload.length < 65536)
    (contents : block.contents = putBe16 payload.length ++ payload)
    (held : session.key = some key)
    (called : psa (session.aeadCall sender key payload) = some output)
    (tagged : output.length = payload.length + 16) :
    ∃ buf, sealBlock cfg sender (some memory) psa session block =
        ⟨session.advance (output.drop payload.length), some buf,
          some (session.aeadCall sender key payload)⟩ ∧
      buf.contents = putBe16 output.length ++ output := by
  have fits := (Handed.of_contents cfg _ payload contents (by omega)).fits
  have start := Bufview.At.start block
  rw [contents] at start
  obtain ⟨size, payloadAt⟩ := start.readBe16_put _ fits
  rw [Nat.mod_eq_of_lt small] at size
  have available := payloadAt.available fits
  have input := payloadAt.loaded
  have whole := claimed_contents memory (payload.length + 16) output _ tagged
  have tag := claimed_tail memory (payload.length + 16) output _ payload.length tagged (by omega)
  rw [Nat.add_sub_cancel_left] at tag
  refine ⟨_, ?_, whole.trans (by rw [tagged])⟩
  simp only [sealBlock, bufAlloc, Option.map_some, size, available, ne_eq, not_true, if_false, held,
    payloadAt.read fits _ (Nat.le_refl _), Option.getD_some, input, called, tagged]
  rw [← tag]

theorem sessionEnd_id : (sessionEnd session).id = session.id := by
  unfold sessionEnd
  split_ifs <;> rfl

theorem sessionEnd_valid : (sessionEnd session).flags.valid = session.flags.valid := by
  unfold sessionEnd
  split_ifs <;> rfl

theorem openBlock_session (cfg : Config) (sender : PouchRole) (malloc : Option Memory)
    (psa : PsaAead Key) (session : Session Key) (block : PouchBuf) :
    ((openBlock cfg sender malloc psa session block).session = session ∧
      (openBlock cfg sender malloc psa session block).block = none) ∨
    ∃ tag buf, (openBlock cfg sender malloc psa session block).session =
        (session.advance tag).markValid ∧
      (openBlock cfg sender malloc psa session block).block = some buf := by
  unfold openBlock
  cases malloc with
  | none => exact .inl ⟨rfl, rfl⟩
  | some memory =>
    simp only [bufAlloc, Option.map_some]
    split_ifs
    · exact .inl ⟨rfl, rfl⟩
    cases session.key with
    | none => exact .inl ⟨rfl, rfl⟩
    | some key =>
      simp only
      split
      · exact .inl ⟨rfl, rfl⟩
      · split_ifs
        · exact .inl ⟨rfl, rfl⟩
        · exact .inr ⟨_, _, rfl, rfl⟩

theorem openBlock_cases (handed : Handed cfg block) (outcome : BlockOutcome Key)
    (result : openBlock cfg sender malloc psa session block = outcome) :
    (outcome.session = session ∧ outcome.block = none) ∨
    ∃ key input output buf, session.key = some key ∧
      block.contents = putBe16 input.length ++ input ∧ 16 < input.length ∧
      psa (session.aeadCall sender key input) = some output ∧ output.length + 16 = input.length ∧
      outcome = ⟨(session.advance (input.drop output.length)).markValid, some buf,
        some (session.aeadCall sender key input)⟩ ∧
      buf.contents = putBe16 output.length ++ output := by
  subst result
  unfold openBlock
  cases malloc with
  | none => exact .inl ⟨rfl, rfl⟩
  | some memory =>
    simp only [bufAlloc, Option.map_some]
    obtain ⟨high, low, rest, contents⟩ := handed.split
    have start := Bufview.At.start block
    rw [contents] at start
    have read := start.readBe16 cfg
    have restAt := start.advance handed.fits 2 (by simp)
    rw [read]
    simp only [List.drop_succ_cons, List.drop_zero] at restAt ⊢
    rw [restAt.available handed.fits]
    split_ifs with invalid
    · exact .inl ⟨rfl, rfl⟩
    simp only [not_or, Nat.not_le, Decidable.not_not] at invalid
    obtain ⟨long, size⟩ := invalid
    have payload : getBe16 high low - 16 ≤ rest.length := by omega
    have tagAt := restAt.advance handed.fits (getBe16 high low - 16) payload
    have input := restAt.loaded
    rw [← size] at input
    rw [restAt.read handed.fits _ payload]
    simp only [Option.getD_some, input]
    cases held : session.key with
    | none => exact .inl ⟨rfl, rfl⟩
    | some key =>
      simp only
      cases called : psa (session.aeadCall sender key rest) with
      | none => exact .inl ⟨rfl, rfl⟩
      | some output =>
        simp only
        split_ifs with unexpected
        · exact .inl ⟨rfl, rfl⟩
        · have outputLength : output.length = getBe16 high low - 16 := by simpa using unexpected
          have whole := claimed_contents memory (getBe16 high low - 16) output _ outputLength
          have tag : (pouchBufviewMemcpy cfg _ 16).1 = _ :=
            tagAt.memcpy_all handed.fits 16 (by simp only [List.length_drop]; omega)
          rw [← outputLength] at tag
          refine .inr ⟨key, rest, output, _, rfl, ?_, by omega, called, by omega, ?_,
            whole.trans (by rw [outputLength])⟩
          · rw [contents, ← size, putBe16_get]
            rfl
          · rw [outputLength] at tag ⊢
            rw [tag]

theorem openBlock_mismatch (cfg : Config) (sender : PouchRole) (malloc : Option Memory)
    (psa : PsaAead Key) (session : Session Key) (size : Nat) (input : List UInt8)
    (fits : block.bytes < cfg.sizeRange) (contents : block.contents = putBe16 size ++ input)
    (differs : size % 65536 ≠ input.length) :
    (openBlock cfg sender malloc psa session block).block = none := by
  have start := Bufview.At.start block
  rw [contents] at start
  obtain ⟨read, inputAt⟩ := start.readBe16_put _ fits
  have available := inputAt.available fits
  cases malloc with
  | none => rfl
  | some memory =>
    simp only [openBlock, bufAlloc, Option.map_some, read, available]
    rw [if_pos (.inr differs)]
    rfl

theorem openBlock_framed (cfg : Config) (memory : Memory) (input output : List UInt8) (key : Key)
    (long : 16 < input.length) (small : input.length < 65536)
    (contents : block.contents = putBe16 input.length ++ input)
    (held : session.key = some key)
    (called : psa (session.aeadCall sender key input) = some output)
    (untagged : output.length + 16 = input.length) :
    ∃ buf, openBlock cfg sender (some memory) psa session block =
        ⟨(session.advance (input.drop output.length)).markValid, some buf,
          some (session.aeadCall sender key input)⟩ ∧
      buf.contents = putBe16 output.length ++ output := by
  have handed := Handed.of_contents cfg _ input contents (by omega)
  rcases openBlock_cases handed (openBlock cfg sender (some memory) psa session block) rfl with
    ⟨_, failed⟩ | ⟨key', input', output', buf, held', contents', _, called', untagged', result, whole⟩
  · -- Nothing that makes the function fail is the case here.
    have start := Bufview.At.start block
    rw [contents] at start
    obtain ⟨read, inputAt⟩ := start.readBe16_put _ handed.fits
    rw [Nat.mod_eq_of_lt small] at read
    have available := inputAt.available handed.fits
    have notShort : ¬ input.length ≤ 16 := Nat.not_le.mpr long
    have payload : output.length = input.length - 16 := by omega
    simp [openBlock, bufAlloc, read, available, notShort, held, called, payload,
      inputAt.read handed.fits (input.length - 16) (Nat.sub_le _ _), inputAt.loaded] at failed
  · have sameInput : input' = input := by
      rw [contents] at contents'
      exact (List.append_inj contents' rfl).2.symm
    obtain rfl : key' = key := Option.some.inj (held'.symm.trans held)
    subst sameInput
    obtain rfl : output' = output := Option.some.inj (called'.symm.trans called)
    exact ⟨buf, result, whole⟩

end Specs

end Pouch
