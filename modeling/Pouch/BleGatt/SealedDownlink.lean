import Pouch.BleGatt.DownlinkTransfer
import Pouch.Saead.AuthenticatedPrefix
import Pouch.Saead.PouchReplay

set_option autoImplicit false

/-!
# A sealed pouch over the downlink characteristic

The blocks of a pouch that a server seals come out of the pipeline as the server had them, while the
uplink goes on, as long as the session is not ended.
-/

namespace Pouch

open ByteMemory
open Reassembly

section Receiving

variable {Key : Type} {cfg : Config} {device next : Device Key}

def Crypto.receiving : Crypto Key → Option (Session Key × ServerSeen)
  | .none => Option.none
  | .saead state => some (state.downlink, state.server)

variable (cfg) in
theorem encryptBlock_receiving (call : BlockCall Key) (pool : Ledger) (block : Buf) (crypto : Crypto Key) :
    (crypto.encryptBlock cfg call pool block).2.1.receiving = crypto.receiving := by
  cases crypto with
  | none => rfl
  | saead state =>
    simp only [Crypto.encryptBlock]
    split_ifs <;> rfl

theorem processQueue_receiving (blocks : List Buf) (calls : Nat → BlockCall Key) (device : Device Key) :
    (processQueue cfg blocks calls device).1.crypto.receiving = device.crypto.receiving := by
  induction blocks generalizing calls device with
  | nil => rfl
  | cons block rest ih =>
    have encrypted := encryptBlock_receiving cfg (calls 0) device.pool block device.crypto
    simp only [processQueue]
    generalize device.crypto.encryptBlock cfg (calls 0) device.pool block = result at encrypted ⊢
    obtain ⟨sent, crypto, pool⟩ := result
    cases sent with
    | none => exact (ih _ _).trans encrypted
    | some sent => exact (ih _ _).trans encrypted

theorem processBlocks_receiving (calls : Nat → BlockCall Key) (device : Device Key) :
    (processBlocks cfg calls device).1.crypto.receiving = device.crypto.receiving := by
  simp only [processBlocks, drainQueue, markClosed]
  split_ifs <;> first | rfl | exact processQueue_receiving _ _ _

variable (cfg) in
theorem sessionStart_receiving (call : SessionCall Key) (crypto : Crypto Key) :
    (crypto.sessionStart cfg call).2.receiving = crypto.receiving := by
  cases crypto <;> rfl

theorem pouchStart_receiving (crypto : Crypto Key) : crypto.pouchStart.2.receiving = crypto.receiving := by
  cases crypto <;> rfl

theorem startSession_receiving (call : SessionCall Key) (device : Device Key) :
    (startSession cfg call device).1.crypto.receiving = device.crypto.receiving := by
  have started := sessionStart_receiving cfg call device.crypto
  simp only [startSession]
  split_ifs
  · generalize device.crypto.sessionStart cfg call = result at started ⊢
    obtain ⟨status, crypto⟩ := result
    cases status <;> exact started
  · rfl

theorem startPouch_receiving (device : Device Key) :
    (startPouch device).1.crypto.receiving = device.crypto.receiving := by
  have started := pouchStart_receiving device.crypto
  simp only [startPouch]
  split_ifs
  · generalize device.crypto.pouchStart = result at started ⊢
    obtain ⟨status, crypto⟩ := result
    cases status <;> exact started
  · rfl

theorem startHeader_receiving (call : HeaderCall) (device : Device Key) :
    (startHeader call device).1.crypto.receiving = device.crypto.receiving := by
  simp only [startHeader]
  split_ifs
  · generalize pouchHeaderCreate call device.crypto device.pool = result
    obtain ⟨header, pool⟩ := result
    cases header <;> rfl
  · rfl

def Crypto.Receives (holds : Session Key → ServerSeen → Prop) (crypto : Crypto Key) : Prop :=
  ∃ session seen, crypto.receiving = some (session, seen) ∧ holds session seen

theorem Crypto.receiving_some {crypto : Crypto Key} {session : Session Key} {seen : ServerSeen}
    (receiving : crypto.receiving = some (session, seen)) :
    ∃ uplink, crypto = .saead ⟨uplink, session, seen⟩ := by
  cases crypto with
  | none => cases receiving
  | saead state =>
    simp only [Crypto.receiving, Option.some.injEq, Prod.mk.injEq] at receiving
    obtain ⟨rfl, rfl⟩ := receiving
    exact ⟨state.uplink, rfl⟩

theorem Crypto.Receives.same {holds : Session Key → ServerSeen → Prop} {crypto next : Crypto Key}
    (receives : crypto.Receives holds) (same : next.receiving = crypto.receiving) : next.Receives holds := by
  obtain ⟨session, seen, receiving, held⟩ := receives
  exact ⟨session, seen, same.trans receiving, held⟩

theorem Crypto.Receives.ended {holds : Session Key → ServerSeen → Prop} {crypto : Crypto Key}
    (receives : crypto.Receives holds)
    (ends : ∀ session seen, holds session seen → holds (Pouch.sessionEnd session) seen) :
    crypto.sessionEnd.Receives holds := by
  obtain ⟨session, seen, receiving, held⟩ := receives
  obtain ⟨uplink, rfl⟩ := Crypto.receiving_some receiving
  exact ⟨Pouch.sessionEnd session, seen, rfl, ends session seen held⟩

def Event.endsSession : Event → Bool
  | .sessionEnded => true
  | _ => false

/-- Outside of the downlink, all that can happen to its session is that it is ended with the one of the
uplink. -/
theorem step_receives (formed : device.Formed cfg) (op : DeviceOp Key) (elsewhere : op.party ≠ .downlink)
    (holds : Session Key → ServerSeen → Prop)
    (ends : (∃ event ∈ (device.step cfg op).2, event.endsSession = true) →
      ∀ session seen, holds session seen → holds (sessionEnd session) seen)
    (receives : device.crypto.Receives holds) : (device.step cfg op).1.crypto.Receives holds := by
  have traced (worker : op.party ≠ .worker) (start : op.party ≠ .start) :
      (device.step cfg op).1.crypto.Receives holds := by
    have call := Device.step_call cfg device op formed
    apply call.trace.invariant (fun reached _ => reached.crypto.Receives holds)
      (fun event => event.party ≠ .worker ∧ event.party ≠ .start ∧ event.party ≠ .downlink ∧
        (event.endsSession = true → ∀ session seen, holds session seen → holds (sessionEnd session) seen))
      _ _ [] receives
    · intro before event after _ small allowed held
      obtain ⟨notWorker, notStart, notDownlink, ended⟩ := allowed
      by_cases last : event = .sessionEnded
      next =>
        subst last
        cases small with
        | sessionEnded => exact held.ended (ended rfl)
        | downlink _ pool crypto downlink on => exact absurd on notDownlink
      next => exact held.same (congrArg Crypto.receiving (small.crypto_kept notWorker notStart notDownlink last))
    · intro event member
      have ended := fun isEnd : event.endsSession = true => ends ⟨event, member, isEnd⟩
      rcases Event.party_of_reportedBy (call.parties event member) with same | ⟨rfl, _⟩ | ⟨⟨block, rfl⟩, _⟩
      · rw [same]
        exact ⟨worker, start, elsewhere, ended⟩
      · exact ⟨by simp [Event.party], by simp [Event.party], by simp [Event.party], ended⟩
      · exact ⟨by simp [Event.party], by simp [Event.party], by simp [Event.party], ended⟩
  cases op with
  | processBlocks calls => exact receives.same (processBlocks_receiving calls device)
  | startActivate =>
    simp only [Device.step, startActivate]
    split_ifs <;> exact receives
  | startSession call => exact receives.same (startSession_receiving call device)
  | startPouch => exact receives.same (startPouch_receiving device)
  | startHeader call => exact receives.same (startHeader_receiving call device)
  | downlinkStart malloc => exact absurd rfl elsewhere
  | downlinkPush call data => exact absurd rfl elsewhere
  | decryptBlocks call => exact absurd rfl elsewhere
  | consumeBlocks => exact absurd rfl elsewhere
  | _ => exact traced (by simp [DeviceOp.party]) (by simp [DeviceOp.party])

end Receiving

section Sealing

variable {Key : Type} (cfg : Config) (aead : Aead Key) (key : Key)

def sealedBehind : Session Key → List FramedBlock → Session Key
  | session, [] => session
  | session, block :: rest =>
    sealedBehind (session.advance (aead.tag (session.aeadCall .server key block.payload))) rest

theorem sealedBehind_snoc (session : Session Key) (blocks : List FramedBlock) (block : FramedBlock) :
    sealedBehind aead key session (blocks ++ [block]) =
      (sealedBehind aead key session blocks).advance
        (aead.tag ((sealedBehind aead key session blocks).aeadCall .server key block.payload)) := by
  induction blocks generalizing session with
  | nil => rfl
  | cons first rest ih => exact ih _

theorem sealRun_get (session : Session Key) (held : session.key = some key) (blocks : List FramedBlock)
    (index : Nat) :
    (sealRun cfg aead session blocks)[index]? =
      blocks[index]?.map fun block =>
        (sealedBehind aead key session (blocks.take index)).aeadCall .server key block.payload := by
  induction blocks generalizing session index with
  | nil => simp [sealRun]
  | cons block rest ih =>
    rw [sealRun_cons session held]
    cases index with
    | zero => rfl
    | succ index =>
      exact ih (session.advance (aead.tag (session.aeadCall .server key block.payload))) held index

end Sealing

section Sealed

variable {Key : Type} {cfg : Config} {decode : List UInt8 → Option (EncryptionInfo × Nat)} {aead : Aead Key}

/-- A pouch that a server seals: it numbers the session or not, derives a key for it, and starts at the
first block. -/
structure SealedPouch (cfg : Config) (decode : List UInt8 → Option (EncryptionInfo × Nat)) (aead : Aead Key) where
  pouch : SentPouch cfg decode
  session : SessionInfo
  id : SessionId
  pouchId : UInt16
  key : Key
  sending : Session Key
  blocks : List FramedBlock
  announces : pouch.info = .saead session pouchId
  identified : sessionIdOf session = some id
  server : id.initiator = .server
  keyed : sending.key = some key
  algorithm : sending.algorithm = session.algorithm.algorithm
  numbered : sending.pouch.id = pouchId
  first : sending.pouch.blockIndex = 0
  nonempty : ∀ block ∈ blocks, 1 ≤ block.payload.length
  framed : pouch.blockBytes =
    (sealRun cfg aead sending blocks).map fun call => putBe16 (aead.encrypt call).length ++ aead.encrypt call

namespace SealedPouch

variable (sealed : SealedPouch cfg decode aead)

def behind (count : Nat) : Session Key := sealedBehind aead sealed.key sealed.sending (sealed.blocks.take count)

theorem behind_succ (count : Nat) (block : FramedBlock) (place : sealed.blocks[count]? = some block) :
    sealed.behind (count + 1) = (sealed.behind count).advance
      (aead.tag ((sealed.behind count).aeadCall .server sealed.key block.payload)) := by
  simp only [behind]
  rw [List.take_add_one, place, Option.toList_some, sealedBehind_snoc]

theorem frame (count : Nat) (bytes : List UInt8) (place : sealed.pouch.blockBytes[count]? = some bytes) :
    ∃ block, sealed.blocks[count]? = some block ∧
      let call := (sealed.behind count).aeadCall .server sealed.key block.payload
      bytes = putBe16 (aead.encrypt call).length ++ aead.encrypt call ∧ (aead.encrypt call).length < 65536 := by
  have inside := List.mem_of_getElem? place
  rw [sealed.framed, List.getElem?_map, sealRun_get cfg aead sealed.key sealed.sending sealed.keyed] at place
  cases found : sealed.blocks[count]? with
  | none => simp [found] at place
  | some block =>
    simp only [found, Option.map_some, Option.some.injEq] at place
    refine ⟨block, rfl, place.symm, ?_⟩
    obtain ⟨wire, _, same⟩ := List.mem_map.mp inside
    have lengths := congrArg List.length (same.trans place.symm)
    rw [wire.bytes_length, List.length_append, putBe16_length] at lengths
    have field := wire.field
    simp only [behind]
    omega

theorem blocks_length : sealed.blocks.length = sealed.pouch.blocks.length := by
  have lengths := congrArg List.length sealed.framed
  have ends := sealRun_get cfg aead sealed.key sealed.sending sealed.keyed sealed.blocks
  rw [sealed.pouch.blockBytes_length, List.length_map] at lengths
  rw [lengths]
  apply Nat.le_antisymm
  · by_contra beyond
    have here := ends (sealRun cfg aead sealed.sending sealed.blocks).length
    rw [List.getElem?_eq_none (Nat.le_refl _)] at here
    have missing := List.getElem?_eq_none_iff.mp (Option.map_eq_none_iff.mp here.symm)
    omega
  · by_contra beyond
    have here := ends sealed.blocks.length
    rw [List.getElem?_eq_none (Nat.le_refl _), Option.map_none] at here
    have missing := List.getElem?_eq_none_iff.mp here
    omega

end SealedPouch

structure Opening (sealed : SealedPouch cfg decode aead) (initial : Session Key × ServerSeen) (count : Nat)
    (device : Device Key) (log : List PipelineEvent) : Prop where
  armed : device.downlink.Armed
  waiting : count = 0 ∨ device.downlink.pouchHeader = false →
    device.crypto.receiving = some initial ∧ decryptions log = []
  opening : 0 < count → device.downlink.pouchHeader = true → ∃ session seen,
    device.crypto.receiving = some (session, seen) ∧ InStep (sealed.behind (decryptions log).length) session
  results : (decryptions log).map (fun decryption => decryption.2.map (·.data.contents)) =
    (sealed.blocks.take (decryptions log).length).map fun block => some block.contents

variable {sealed : SealedPouch cfg decode aead} {initial : Session Key × ServerSeen} {count : Nat}
  {device : Device Key} {log : List PipelineEvent}

theorem SealedPouch.taken (sealed : SealedPouch cfg decode aead) (state : Saead Key)
    (valid : isValidDownlink state sealed.id sealed.session.algorithm.algorithm = true) (keys : KeySource Key)
    (derives : keys.sessionKeyGenerate sealed.id sealed.session.algorithm.algorithm
      sealed.session.maxBlockSizeLog.toNat = some sealed.key) :
    (Crypto.saead state).downlinkStart cfg sealed.pouch.info keys =
      (none, .saead (state.restarted sealed.id sealed.session.algorithm.algorithm sealed.key sealed.pouchId)) := by
  have derived : downlinkSessionKey cfg state sealed.id sealed.session.algorithm.algorithm
      sealed.session.maxBlockSizeLog keys = .ok (some sealed.key) := by
    simp only [downlinkSessionKey, sealed.server, derives]
  have started : cryptoDownlinkStart cfg state (.saead sealed.session sealed.pouchId) keys = _ :=
    cryptoDownlinkStart_saead sealed.session sealed.pouchId keys sealed.id sealed.identified
  rw [derived, if_pos valid] at started
  simp only [Crypto.downlinkStart, sealed.announces, started]

theorem SealedPouch.inStep (sealed : SealedPouch cfg decode aead) (state : Saead Key) :
    InStep (sealed.behind 0)
      (state.restarted sealed.id sealed.session.algorithm.algorithm sealed.key sealed.pouchId).downlink :=
  ⟨sealed.keyed, sealed.algorithm, sealed.numbered, sealed.first,
    fun later => absurd (sealed.first ▸ later) (UInt32.lt_irrefl 0)⟩

-- Replay protection takes the header, whatever the uplink is at.
def SealedPouch.Fresh (sealed : SealedPouch cfg decode aead) (initial : Session Key × ServerSeen) : Prop :=
  ∀ uplink, isValidDownlink ⟨uplink, initial.1, initial.2⟩ sealed.id sealed.session.algorithm.algorithm = true

def DownlinkWrite.Derives (write : DownlinkWrite Key) (sealed : SealedPouch cfg decode aead) : Prop :=
  write.call.keys.sessionKeyGenerate sealed.id sealed.session.algorithm.algorithm
    sealed.session.maxBlockSizeLog.toNat = some sealed.key

theorem Opening.accepts (opening : Opening sealed initial count device log) (fresh : sealed.Fresh initial)
    (keys : KeySource Key) (derives : keys.sessionKeyGenerate sealed.id sealed.session.algorithm.algorithm
      sealed.session.maxBlockSizeLog.toNat = some sealed.key)
    (waiting : count = 0 ∨ device.downlink.pouchHeader = false) :
    ∃ state session seen, device.crypto.downlinkStart cfg sealed.pouch.info keys = (none, state) ∧
      state.receiving = some (session, seen) ∧ InStep (sealed.behind 0) session := by
  obtain ⟨uplink, crypto⟩ := Crypto.receiving_some (opening.waiting waiting).1
  have taken := sealed.taken _ (fresh uplink) keys derives
  rw [crypto]
  exact ⟨_, _, _, taken, rfl, sealed.inStep _⟩

def startedBy (write : DownlinkWrite Key) (packet : Packet) (device : Device Key) : Device Key :=
  if packet.isFirst then (device.pouchDownlinkStart write.malloc).1 else device

theorem startedBy_crypto (write : DownlinkWrite Key) (packet : Packet) (device : Device Key) :
    (startedBy write packet device).crypto = device.crypto := by
  simp only [startedBy]
  split_ifs <;> rfl

theorem Arriving.headerless {pouch : SentPouch cfg decode} {payloads : List (List UInt8)} {blocks : List Buf}
    (arriving : Arriving pouch payloads count device.frames blocks)
    (fits : pouch.header.length ≤ cfg.maxCiphertextBlockSize) (write : DownlinkWrite Key)
    (works : write.Works decode) (packet : Packet) (first : packet.isFirst = decide (count = 0))
    (waiting : count = 0 ∨ device.downlink.pouchHeader = false) :
    StandsAt pouch none (arrived payloads (arrivals payloads count)) (startedBy write packet device).frames ∧
      arrived payloads (arrivals payloads count) < cfg.maxCiphertextBlockSize := by
  have positive := cfg.maxCiphertextBlockSize_pos
  by_cases begun : count = 0
  next =>
    subst begun
    have isFirst : packet.isFirst = true := by simpa using first
    obtain ⟨memory, allocated⟩ := Option.isSome_iff_exists.mp works.starts
    obtain ⟨started, _⟩ := device.pouchDownlinkStart_refines write.malloc
    simp only [startedBy, isFirst, if_true]
    refine ⟨⟨rfl, rfl, ⟨0, memory⟩, ?_, by simp⟩, positive⟩
    exact (congrArg Downlink.pouchBuf started).trans (by rw [allocated]; rfl)
  next =>
    have header := waiting.resolve_left begun
    have isFirst : packet.isFirst = false := by simpa [begun] using first
    obtain ⟨state, received, stands, _⟩ := arriving.standing (Nat.pos_of_ne_zero begun)
    simp only [startedBy, isFirst, Bool.false_eq_true, if_false]
    cases state with
    | some handed =>
      have taken : device.downlink.pouchHeader = true := stands.1
      simp [taken] at header
    | none =>
      have capacity : pouch.framing.bound 0 ≤ pouch.framing.capacity := pouch.bound_zero.trans_le fits
      have between : _ < max 1 (pouch.framing.bound 0) := received.between capacity (arrived_zero payloads)
      have zero : pouch.framing.bound 0 = pouch.header.length := pouch.bound_zero
      exact ⟨stands, by omega⟩

theorem Opening.write (opening : Opening sealed initial count device log) {payloads : List (List UInt8)}
    {blocks : List Buf} (arriving : Arriving sealed.pouch payloads count device.frames blocks)
    (whole : payloads.flatten = sealed.pouch.stream)
    (fits : sealed.pouch.header.length ≤ cfg.maxCiphertextBlockSize) (fresh : sealed.Fresh initial)
    (write : DownlinkWrite Key) (works : write.Works decode) (derives : write.Derives sealed) (packet : Packet)
    (decoded : packetizerDecode write.buf = .ok packet) (place : payloads[count]? = some packet.payload)
    (first : packet.isFirst = decide (count = 0)) :
    Opening sealed initial (count + 1) (bleStep cfg device (.write write)).1
      (log ++ (bleStep cfg device (.write write)).2) := by
  obtain ⟨framed, queued⟩ := downlinkWrite_queued cfg device write
  have made := downlinkWrite_decoded cfg device write packet decoded
  have armed := queued.armed opening.armed
  have crypto := startedBy_crypto write packet device
  have effect := loop_effect cfg write.call packet.payload.length 0
    ⟨(startedBy write packet device).pool, (startedBy write packet device).crypto,
      (startedBy write packet device).downlink⟩ packet.payload
  simp only [bleStep, queued.framed]
  rw [made] at armed ⊢
  by_cases waiting : count = 0 ∨ device.downlink.pouchHeader = false
  next =>
    obtain ⟨stands, room⟩ := arriving.headerless fits write works packet first waiting
    obtain ⟨untouched, undecrypted⟩ := opening.waiting waiting
    have results : decryptions (log ++ framed.map .pushed) = [] := by rw [decryptions_pushed, undecrypted]
    refine ⟨armed, fun still => ?_, fun _ opened => ?_, by simp [results]⟩
    · have closed := still.resolve_left (Nat.succ_ne_zero count)
      have same := (effect.refused closed).1.trans crypto
      exact ⟨(congrArg Crypto.receiving same).trans untouched, results⟩
    · have piece := payload_slice place
      have ending : arrived payloads (arrivals payloads (count + 1)) ≤ sealed.pouch.stream.length :=
        whole ▸ arrived_le payloads _
      have grown := arrived_succ place
      rw [whole] at piece
      obtain ⟨state, session, seen, accepted, receiving, inStep⟩ :=
        opening.accepts fresh write.call.keys derives waiting
      have opens := Device.pouchDownlinkPush_opens sealed.pouch (startedBy write packet device) write.call
        works.pushes _ (arrived payloads (arrivals payloads (count + 1))) room stands (by omega) ending
        (piece ▸ opened)
      rw [← piece, crypto, accepted] at opens
      refine ⟨session, seen, (congrArg Crypto.receiving opens).trans receiving, ?_⟩
      rw [results]
      exact inStep
  next =>
    obtain ⟨begun, header⟩ := not_or.mp waiting
    rw [Bool.not_eq_false] at header
    have isFirst : packet.isFirst = false := by simpa [begun] using first
    have same : startedBy write packet device = device := by simp [startedBy, isFirst]
    have headerStill : (startedBy write packet device).downlink.pouchHeader = true := by rw [same, header]
    obtain ⟨still, kept⟩ := effect.behind headerStill
    obtain ⟨session, seen, receiving, inStep⟩ := opening.opening (Nat.pos_of_ne_zero begun) header
    refine ⟨armed, fun waits => ?_, fun _ _ => ?_, by simpa using opening.results⟩
    · rcases waits with none' | closed
      · exact absurd none' (Nat.succ_ne_zero count)
      · exact absurd (still.symm.trans closed) (by simp)
    · refine ⟨session, seen, ?_, by simpa using inStep⟩
      exact (congrArg Crypto.receiving (kept.trans crypto)).trans receiving

theorem Arriving.next {pouch : SentPouch cfg decode} {payloads : List (List UInt8)} {frames : Downlink Unit}
    (arriving : Arriving pouch payloads count frames (pushedBlocks log)) (pipelined : Pipelined device log)
    (block : Buf) (rest : List Buf) (queue : device.downlink.decryptQueue = block :: rest) :
    0 < count ∧ frames.pouchHeader = true ∧
      pouch.blockBytes[(decryptions log).length]? = some block.data.contents := by
  have pushed := pipelined.pushed
  rw [queue] at pushed
  have begun : 0 < count := by
    by_contra unbegun
    have nothing := arriving.unbegun (by omega)
    simp [pushed] at nothing
  obtain ⟨state, _, stands, handed⟩ := arriving.standing begun
  have place := congrArg (fun list => list[(decryptions log).length]?) handed
  rw [pushed] at place
  simp only [List.map_append, List.map_cons] at place
  rw [List.getElem?_append_right (by simp)] at place
  simp only [List.length_map, Nat.sub_self, List.getElem?_cons_zero] at place
  cases state with
  | none => simp at place
  | some final =>
    refine ⟨begun, stands.1, ?_⟩
    have inside : (decryptions log).length < final := by
      by_contra beyond
      rw [Option.getD_some, List.getElem?_take, if_neg beyond] at place
      cases place
    rw [Option.getD_some, List.getElem?_take, if_pos inside] at place
    exact place.symm

variable (aead) in
theorem sealedBehind_key (session : Session Key) (key : Key) (held : session.key = some key)
    (blocks : List FramedBlock) : (sealedBehind aead key session blocks).key = some key := by
  induction blocks generalizing session with
  | nil => exact held
  | cons block rest ih =>
    exact ih (session.advance (aead.tag (session.aeadCall .server key block.payload))) held

variable (cfg) in
theorem decryptBlock_opens (state : Saead Key) (call : BlockCall Key) (pool : Ledger) (block : Buf)
    (allocates : call.malloc.isSome = true) (opens : call.psa = aead.decrypt) (payload : List UInt8)
    (nonempty : 1 ≤ payload.length) (session : Session Key) (key : Key) (keyed : session.key = some key)
    (inStep : InStep session state.downlink)
    (contents : block.data.contents = putBe16 (aead.encrypt (session.aeadCall .server key payload)).length ++
      aead.encrypt (session.aeadCall .server key payload))
    (small : (aead.encrypt (session.aeadCall .server key payload)).length < 65536) :
    ∃ plain after seen pool', (Crypto.saead state).decryptBlock cfg call pool block =
        (some plain, .saead ⟨state.uplink, after, seen⟩, pool') ∧
      plain.data.contents = putBe16 payload.length ++ payload ∧
      InStep (session.advance (aead.tag (session.aeadCall .server key payload))) after := by
  obtain ⟨memory, allocated⟩ := Option.isSome_iff_exists.mp allocates
  let made := session.aeadCall .server key payload
  have tagged : (aead.encrypt made).length = payload.length + 16 := aead.tagged made
  have decrypted : call.psa (state.downlink.aeadCall .server key (aead.encrypt made)) = some payload := by
    rw [opens, ← inStep.aeadCall .server key]
    exact aead.inverts made
  obtain ⟨buf, opened, plaintext⟩ := openBlock_framed cfg memory (aead.encrypt made) payload key (by omega) small
    contents (inStep.key.symm.trans keyed) decrypted (by omega)
  obtain ⟨advanced, _⟩ := inStep.advance (aead.tag made) (aead.tag_length made)
  simp only [Crypto.decryptBlock, downlinkBlockDecrypt, sessionDecryptBlock, bufProduce, bufHold, bufAlloc, allocated,
    opened, Option.map_some]
  exact ⟨_, _, _, _, rfl, plaintext,
    ⟨advanced.key, advanced.algorithm, advanced.pouch, advanced.index, advanced.ad⟩⟩

theorem Opening.decrypt (opening : Opening sealed initial count device log) {payloads : List (List UInt8)}
    (arriving : Arriving sealed.pouch payloads count device.frames (pushedBlocks log))
    (pipelined : Pipelined device log) (call : BlockCall Key) (allocates : call.malloc.isSome = true)
    (opens : call.psa = aead.decrypt) :
    Opening sealed initial count (device.decryptBlocks cfg call).1
      (log ++ (device.decryptBlocks cfg call).2.filterMap Event.pipeline) := by
  simp only [Device.decryptBlocks]
  split_ifs with pending
  next =>
    cases queue : device.downlink.decryptQueue with
    | nil => exact absurd queue (pipelined.decrypt pending)
    | cons block rest =>
      obtain ⟨begun, header, place⟩ := arriving.next pipelined block rest queue
      obtain ⟨session, seen, receiving, inStep⟩ := opening.opening begun header
      obtain ⟨uplink, crypto⟩ := Crypto.receiving_some receiving
      obtain ⟨plaintext, plainPlace, contents, small⟩ := sealed.frame _ _ place
      have nonempty := sealed.nonempty plaintext (List.mem_of_getElem? plainPlace)
      have keyed := sealedBehind_key aead sealed.sending sealed.key sealed.keyed
        (sealed.blocks.take (decryptions log).length)
      obtain ⟨plain, after, seen', pool, decrypted, same, advanced⟩ := decryptBlock_opens cfg
        ⟨uplink, session, seen⟩ call device.pool block allocates opens plaintext.payload nonempty _ sealed.key keyed inStep contents small
      have made : decryptions (log ++ [PipelineEvent.decrypted (some block) (some plain)]) =
          decryptions log ++ [(block, some plain)] := by
        rw [decryptions_snoc]
        rfl
      simp only [crypto, decrypted, List.filterMap_cons, List.filterMap_nil, Event.pipeline]
      refine ⟨decrypted_armed plain, fun waits => ?_, fun _ _ => ⟨after, seen', rfl, ?_⟩, ?_⟩
      · rcases waits with none' | closed
        · omega
        · exact absurd (header.symm.trans closed) (by simp)
      · rw [made, List.length_append, List.length_singleton, sealed.behind_succ _ plaintext plainPlace]
        exact advanced
      · rw [made, List.length_append, List.length_singleton, List.take_add_one, plainPlace, List.map_append,
          List.map_append, opening.results]
        simp only [List.map_cons, List.map_nil, Option.toList_some, Option.map_some, same]
        rfl
  next => simpa using opening

theorem Opening.kept (opening : Opening sealed initial count device log) {next : Device Key}
    {events : List PipelineEvent} (crypto : next.crypto.receiving = device.crypto.receiving)
    (header : next.downlink.pouchHeader = device.downlink.pouchHeader) (armed : next.downlink.Armed)
    (silent : decryptions (log ++ events) = decryptions log) : Opening sealed initial count next (log ++ events) := by
  constructor
  next => exact armed
  next =>
    rw [header, crypto, silent]
    exact opening.waiting
  next =>
    rw [header, crypto, silent]
    exact opening.opening
  next =>
    rw [silent]
    exact opening.results

theorem Opening.received (opening : Opening sealed initial count device log) :
    ∃ session seen, device.crypto.receiving = some (session, seen) := by
  by_cases waiting : count = 0 ∨ device.downlink.pouchHeader = false
  next => exact ⟨initial.1, initial.2, (opening.waiting waiting).1⟩
  next =>
    obtain ⟨begun, header⟩ := not_or.mp waiting
    obtain ⟨session, seen, receiving, _⟩ :=
      opening.opening (Nat.pos_of_ne_zero begun) (by simpa using header)
    exact ⟨session, seen, receiving⟩

theorem Opening.consume (opening : Opening sealed initial count device log) :
    Opening sealed initial count device.consumeBlocks.1
      (log ++ device.consumeBlocks.2.filterMap Event.pipeline) := by
  simp only [Device.consumeBlocks]
  split_ifs with pending
  next =>
    have armed := consumed_armed opening.armed
    cases queue : device.downlink.consumeQueue with
    | nil => exact absurd queue (opening.armed.consume.mp pending)
    | cons block rest =>
      refine opening.kept rfl rfl armed ?_
      simp [decryptions, Event.pipeline, PipelineEvent.decryption]
  next => simpa using opening

/-- What the calls of a run do that concern the pouch: the device derives the key of the server, and every
decryption has memory and the AEAD of the server. -/
structure Unseals (sealed : SealedPouch cfg decode aead) (ops : List (BleOp Key)) : Prop where
  derives : ∀ write, BleOp.write write ∈ ops → write.Derives sealed
  opens : ∀ call other, BleOp.other (.decryptBlocks call) other ∈ ops →
    call.malloc.isSome = true ∧ call.psa = aead.decrypt

theorem Unseals.init {ops : List (BleOp Key)} {op : BleOp Key} (unseals : Unseals sealed (ops ++ [op])) :
    Unseals sealed ops :=
  ⟨fun write member => unseals.derives write (List.mem_append_left _ member),
    fun call other member => unseals.opens call other (List.mem_append_left _ member)⟩

-- The end of an uplink session ends the downlink session as well.
def SessionLasts (cfg : Config) (reached : History (Device Key) PipelineEvent) : BleOp Key → Prop
  | .write _ => True
  | .other op _ => ∀ event ∈ (reached.state.step cfg op).2, event.endsSession = false

instance (reached : History (Device Key) PipelineEvent) (op : BleOp Key) : Decidable (SessionLasts cfg reached op) :=
  match op with
  | .write _ => .isTrue trivial
  | .other op _ => inferInstanceAs (Decidable (∀ event ∈ (reached.state.step cfg op).2, event.endsSession = false))

theorem Opening.other (opening : Opening sealed initial count device log) {payloads : List (List UInt8)}
    (arriving : Arriving sealed.pouch payloads count device.frames (pushedBlocks log))
    (pipelined : Pipelined device log) (formed : device.Formed cfg) (op : DeviceOp Key)
    (other : op.isDownlinkCall = false)
    (opens : ∀ call, op = .decryptBlocks call → call.malloc.isSome = true ∧ call.psa = aead.decrypt)
    (lasts : ∀ event ∈ (device.step cfg op).2, event.endsSession = false) :
    Opening sealed initial count (bleStep cfg device (.other op other)).1
      (log ++ (bleStep cfg device (.other op other)).2) := by
  by_cases downlink : op.party = .downlink
  next =>
    cases op with
    | downlinkStart malloc => simp [DeviceOp.isDownlinkCall] at other
    | downlinkPush call data => simp [DeviceOp.isDownlinkCall] at other
    | decryptBlocks call =>
      obtain ⟨allocates, decrypts⟩ := opens call rfl
      exact opening.decrypt arriving pipelined call allocates decrypts
    | consumeBlocks => exact opening.consume
    | _ => simp [DeviceOp.party] at downlink
  next =>
    obtain ⟨session, seen, receiving⟩ := opening.received
    have receives := step_receives formed op downlink (fun last record => last = session ∧ record = seen)
      (by
        rintro ⟨event, member, ended⟩
        exact absurd ended (by simp [lasts event member]))
      ⟨session, seen, receiving, rfl, rfl⟩
    obtain ⟨_, _, still, rfl, rfl⟩ := receives
    cases otherStep_cases formed op other with
    | decrypt call is => simp [is, DeviceOp.party] at downlink
    | consume is => simp [is, DeviceOp.party] at downlink
    | elsewhere kept silent =>
      simp only [bleStep, silent]
      exact opening.kept (still.trans receiving.symm) (by rw [kept]) (by rw [kept]; exact opening.armed) (by rw [List.append_nil])

theorem Writes.opening {packets : List (List UInt8)} {ops : List (BleOp Key)}
    (writes : Writes sealed.pouch packets ops) (fits : sealed.pouch.header.length ≤ cfg.maxCiphertextBlockSize)
    (formed : device.Formed cfg) (pipelined : Pipelined device []) (armed : device.downlink.Armed)
    (receiving : device.crypto.receiving = some initial) (fresh : sealed.Fresh initial)
    (unseals : Unseals sealed ops) (lasts : History.Meets (bleStep cfg) (SessionLasts cfg) ⟨device, []⟩ ops) :
    let run := History.run (bleStep cfg) ⟨device, []⟩ ops
    History.Meets (bleStep cfg) (HeaderTaken sealed.pouch) ⟨device, []⟩ ops ∧
      Opening sealed initial (writtenPackets ops).length run.state run.log := by
  induction ops using List.reverseRecOn with
  | nil => exact ⟨trivial, armed, fun _ => ⟨receiving, rfl⟩, fun some => absurd some (Nat.lt_irrefl 0), rfl⟩
  | append_singleton ops op ih =>
    rw [History.meets_append] at lasts
    obtain ⟨taken, opening⟩ := ih writes.init unseals.init lasts.1
    obtain ⟨reachedFormed, reachedPipelined, arriving⟩ := writes.init.arriving fits formed pipelined taken
    rw [History.meets_append]
    simp only [History.run_append, History.run_cons, History.run_nil, History.record, History.Meets, and_true]
    cases op with
    | other op other =>
      refine ⟨⟨taken, trivial⟩, ?_⟩
      have opens : ∀ call, op = .decryptBlocks call → call.malloc.isSome = true ∧ call.psa = aead.decrypt := by
        rintro call rfl
        exact unseals.opens call other (by simp)
      rw [writtenPackets_snoc]
      simpa [BleOp.packet?] using opening.other arriving reachedPipelined reachedFormed op other opens lasts.2.1
    | write write =>
      obtain ⟨packet, place, buf⟩ := writes.last
      obtain ⟨decoded, decodes, payload, first⟩ := writes.carried.packet _ packet place
      rw [← buf] at decodes
      have derives := unseals.derives write (by simp)
      refine ⟨⟨taken, ?_⟩, ?_⟩
      · intro other otherDecodes waiting
        obtain rfl : other = decoded := Except.ok.inj (otherDecodes.symm.trans decodes)
        have headerless : (writtenPackets ops).length = 0 ∨ _ :=
          waiting.imp_left fun isFirst => by simpa [isFirst] using first
        obtain ⟨state, _, _, accepted, _, _⟩ := opening.accepts fresh write.call.keys derives headerless
        rw [accepted]
      · have payloadPlace : (packets.map List.tail)[(writtenPackets ops).length]? = some decoded.payload := by
          rw [List.getElem?_map, place, payload]
          rfl
        have next := opening.write arriving writes.carried.whole fits fresh write (writes.works write (by simp))
          derives decoded decodes payloadPlace first
        rw [writtenPackets_snoc]
        simpa [BleOp.packet?] using next

theorem Opening.plaintexts (opening : Opening sealed initial count device log) :
    ((decryptions log).filterMap Prod.snd).map (·.data.contents) =
      (sealed.blocks.take (decryptions log).length).map FramedBlock.contents := by
  have results := congrArg (List.filterMap id) opening.results
  rw [List.filterMap_map, List.filterMap_map] at results
  rw [List.map_filterMap, ← List.filterMap_eq_map]
  exact results

/-- A pouch that a server seals and a peer writes in packets: from every state in which no block is left of the
pouches before it and in which its header is taken, what has been consumed is always a beginning of what the
server sealed, and all of it once no handler is pending any more. -/
theorem sealed_pouch_over_ble (sealed : SealedPouch cfg decode aead) (packets : List (List UInt8))
    (earlier ops : List (BleOp Key)) (fits : sealed.pouch.header.length ≤ cfg.maxCiphertextBlockSize)
    (drained : (History.run (bleStep cfg) ⟨.boot Key cfg, []⟩ earlier).state.downlink.Drained)
    (receiving : (History.run (bleStep cfg) ⟨.boot Key cfg, []⟩ earlier).state.crypto.receiving = some initial)
    (fresh : sealed.Fresh initial) (writes : Writes sealed.pouch packets ops) (unseals : Unseals sealed ops)
    (lasts : History.Meets (bleStep cfg) (SessionLasts cfg)
      ⟨(History.run (bleStep cfg) ⟨.boot Key cfg, []⟩ earlier).state, []⟩ ops) :
    let before := (History.run (bleStep cfg) ⟨.boot Key cfg, []⟩ earlier).state
    let run := History.run (bleStep cfg) ⟨before, []⟩ ops
    let consumed := consumedBlocks run.log
    consumed.map (·.data.contents) <+: sealed.blocks.map FramedBlock.contents ∧
      (writtenPackets ops = packets.map some → ShortPackets sealed.pouch packets → run.state.downlink.AtRest →
        consumed.map (·.data.contents) = sealed.blocks.map FramedBlock.contents ∧
          ∀ blocks : List WireBlock, sealed.blocks.map FramedBlock.contents = blocks.map WireBlock.encode →
            ∃ fuel, handleBlocks cfg fuel (consumed.map Buf.data) = some (blocks.flatMap WireBlock.calls)) := by
  intro before run consumed
  obtain ⟨formed, empty, armed⟩ := boot_restart earlier drained
  obtain ⟨taken, opening⟩ := writes.opening fits formed empty armed receiving fresh unseals lasts
  obtain ⟨_, pipelined, arriving⟩ := writes.arriving fits formed empty taken
  have plaintexts := opening.plaintexts
  rw [pipelined.results, List.map_append] at plaintexts
  constructor
  · have taken : consumed.map (·.data.contents) <+: (sealed.blocks.take _).map FramedBlock.contents :=
      ⟨_, plaintexts⟩
    exact taken.trans ((List.take_prefix _ _).map _)
  · intro all short rest
    obtain ⟨undecrypted, unconsumed⟩ := opening.armed.atRest_iff.mp rest
    have pushed := writes.complete all arriving fits short
    rw [pipelined.pushed, undecrypted, List.append_nil] at pushed
    have count := congrArg List.length pushed
    rw [List.length_map, List.length_map, sealed.pouch.blockBytes_length, ← sealed.blocks_length] at count
    rw [unconsumed, List.map_nil, List.append_nil, count, List.take_length] at plaintexts
    refine ⟨plaintexts, fun blocks encoded => ?_⟩
    refine calls_of_contents consumed blocks (plaintexts.trans encoded) ?_
    intro block member
    have inside : block.encode ∈ sealed.blocks.map FramedBlock.contents := encoded ▸ List.mem_map_of_mem member
    obtain ⟨framed, _, same⟩ := List.mem_map.mp inside
    have lengths := congrArg List.length same
    rw [FramedBlock.contents, WireBlock.encode, List.length_append, List.length_append, putBe16_length,
      putBe16_length] at lengths
    have field := framed.field
    omega

end Sealed

section Sample

def sealedDecode (bytes : List UInt8) : Option (EncryptionInfo × Nat) :=
  if sampleHeader.isPrefixOf bytes then
    some (.saead (pouchSession (.random (List.replicate 16 0))) 7, sampleHeader.length)
  else
    none

def sealedFrame (index : UInt8) : WireFrame (defaultConfig .saead) where
  body := [0xc0, 0x00, 0x07, 0x00, index, 0x01] ++ List.replicate 11 0
  nonempty := by simp
  supported := by
    change 17 ≤ (defaultConfig .saead).maxBlockSizeFieldValue
    decide
  field := by
    change 17 < 65536
    decide

theorem sealedPayload_short : ([0xc0] : List UInt8).length < 2 ^ 16 := by decide

def sampleSealed : SealedPouch (defaultConfig .saead) sealedDecode nonceAead where
  pouch :=
    { header := sampleHeader
      info := .saead (pouchSession (.random (List.replicate 16 0))) 7
      blocks := [sealedFrame 0, sealedFrame 1]
      decoded := by
        intro tail
        simp [decodingOnly, sealedDecode]
      undecoded := by decide
      accepted := rfl }
  session := pouchSession (.random (List.replicate 16 0))
  id := ⟨.server, .random (Bytes.zero 16)⟩
  pouchId := 7
  key := ()
  sending := (sessionPouchStart pairedSession 7).2
  blocks := [⟨[0xc0], sealedPayload_short⟩, ⟨[0xc0], sealedPayload_short⟩]
  announces := rfl
  identified := rfl
  server := rfl
  keyed := rfl
  algorithm := rfl
  numbered := rfl
  first := rfl
  nonempty := by simp
  framed := by decide +kernel

def sealedPackets : List (List UInt8) :=
  [0x01 :: sampleSealed.pouch.stream.take 19, 0x00 :: (sampleSealed.pouch.stream.drop 19).take 19,
    0x02 :: sampleSealed.pouch.stream.drop 38]

def sealedWrite (packet : List UInt8) : BleOp Unit :=
  .write
    { buf := some packet
      malloc := some fun _ => 0
      call :=
        { decode := sealedDecode
          keys := ⟨fun _ _ _ => some (), fun _ => none⟩
          malloc := fun _ => some fun _ => 0 } }

def sealedDecrypt : BleOp Unit := .other (.decryptBlocks ⟨some fun _ => 0, nonceAead.decrypt⟩) rfl

def sealedTransfer : List (BleOp Unit) :=
  (sealedPackets.map sealedWrite).flatMap fun write => [write, sealedDecrypt, sampleConsume]

theorem sealedTransfer_delivered :
    let run := History.run (bleStep (defaultConfig .saead)) ⟨.boot Unit (defaultConfig .saead), []⟩ sealedTransfer
    (consumedBlocks run.log).map (·.data.contents) = [[0x00, 0x01, 0xc0], [0x00, 0x01, 0xc0]] := by
  have carried : CarriesData true sealedPackets sampleSealed.pouch.stream :=
    ⟨[⟨true, false, sampleSealed.pouch.stream.take 19⟩,
      ⟨false, false, (sampleSealed.pouch.stream.drop 19).take 19⟩,
      ⟨false, true, sampleSealed.pouch.stream.drop 38⟩], 2, rfl, by decide +kernel, rfl, rfl⟩
  have members : ∀ op ∈ sealedTransfer, (∃ packet, op = sealedWrite packet) ∨ op = sealedDecrypt ∨ op = sampleConsume := by
    intro op member
    simp only [sealedTransfer, List.mem_flatMap, List.mem_map, List.mem_cons, List.not_mem_nil, or_false] at member
    obtain ⟨_, ⟨packet, _, rfl⟩, rfl | rfl | rfl⟩ := member
    · exact .inl ⟨packet, rfl⟩
    · exact .inr (.inl rfl)
    · exact .inr (.inr rfl)
  have writes : Writes sampleSealed.pouch sealedPackets sealedTransfer := by
    refine ⟨carried, List.prefix_refl _, fun write member => ?_⟩
    rcases members _ member with ⟨packet, same⟩ | same | same <;> cases same
    exact ⟨rfl, rfl, fun _ => rfl⟩
  have unseals : Unseals sampleSealed sealedTransfer := by
    refine ⟨fun write member => ?_, fun call other member => ?_⟩
    · rcases members _ member with ⟨packet, same⟩ | same | same <;> cases same
      rfl
    · rcases members _ member with ⟨packet, same⟩ | same | same <;> cases same
      exact ⟨rfl, rfl⟩
  have delivered := sealed_pouch_over_ble sampleSealed sealedPackets [] sealedTransfer (by decide) ⟨rfl, rfl⟩ rfl
    (fun _ => rfl) writes unseals (by decide +kernel)
  exact (delivered.2 rfl (by unfold ShortPackets; decide +kernel) ⟨by decide +kernel, by decide +kernel⟩).1

end Sample

end Pouch
