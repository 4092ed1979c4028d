import Pouch.Device.Traces
import Pouch.DownlinkTurns

set_option autoImplicit false

namespace Pouch

open ByteMemory

section Model

variable {Key : Type} (cfg : Config)

-- How many bytes the reassembly buffer holds in one iteration: with the data copied in, and at the
-- end, when the header is cut off or the leftover is in a new buffer.
def PushState.sizes (push : PushState Key) (data : List UInt8) (turn : PushTurn (Crypto Key)) : List Nat :=
  match push.state.pouchBuf with
  | none => []
  | some buf =>
    let bufWritten := min data.length (cfg.maxCiphertextBlockSize - bufSizeGet buf.data)
    (bufWrite buf.data (data.take bufWritten)).bytes ::
      (push.turn turn).state.pouchBuf.toList.map fun buf => buf.data.bytes

inductive PushRun (call : PushCall Key) : Nat → PushState Key → List UInt8 → List Nat → PushState Key → Prop
  | done (index : Nat) (push : PushState Key) : PushRun call index push [] [] push
  | returned (index : Nat) (push : PushState Key) (data : List UInt8) (turn : PushTurn (Crypto Key))
      (more : data ≠ []) (runs : pushTurn cfg (call.handling cfg) (call.malloc index) push.framing data = turn)
      (returns : turn.returned = true) :
      PushRun call index push data (push.sizes cfg data turn) (push.turn turn)
  | next (index : Nat) (push : PushState Key) (data : List UInt8) (turn : PushTurn (Crypto Key))
      (sizes : List Nat) (result : PushState Key) (more : data ≠ [])
      (runs : pushTurn cfg (call.handling cfg) (call.malloc index) push.framing data = turn)
      (continues : turn.returned = false)
      (rest : PushRun call (index + 1) (push.turn turn) turn.unread sizes result) :
      PushRun call index push data (push.sizes cfg data turn ++ sizes) result

-- How many bytes `session_decrypt_block` claims of the buffer that it decrypts to.
def decryptedSize (block : PouchBuf) : Nat :=
  let (ciphertextLen, ciphertext) := pouchBufviewReadBe16 cfg (pouchBufviewInit block)
  if ciphertextLen ≤ 16 ∨ ciphertextLen ≠ pouchBufviewAvailable cfg ciphertext then
    0
  else
    (bufClaim (blockSizeWrite ⟨0, fun _ => 0⟩ (ciphertextLen - 16)) (ciphertextLen - 16)).2.bytes

end Model

section Blocks

variable {cfg : Config}

theorem decryptedSize_within (encrypted : cfg.encryption = .saead) (block : PouchBuf)
    (within : block.bytes ≤ cfg.maxCiphertextBlockSize) :
    decryptedSize cfg block ≤ cfg.maxPlaintextBlockSize := by
  have fits := cfg.maxCiphertextBlockSize_fits
  have range := cfg.sizeRange_ge
  have tag : cfg.maxCiphertextBlockSize = cfg.maxPlaintextBlockSize + 16 := by
    simp [Config.maxCiphertextBlockSize, Config.authTagLen, encrypted]
  have small := getBe16_lt (block.buf 0) (block.buf 1)
  have offset : (0 + 2) % cfg.sizeRange = 2 := Nat.mod_eq_of_lt (by omega)
  simp only [decryptedSize, pouchBufviewReadBe16, bufviewRead, pouchBufviewInit, pouchBufviewAvailable,
    Bufview.memory, offset, Nat.zero_add]
  split_ifs with refused
  · exact Nat.zero_le _
  · simp only [not_or, Nat.not_le, Decidable.not_not] at refused
    have claimed : ∀ size, (bufClaim (blockSizeWrite ⟨0, fun _ => 0⟩ size) size).2.bytes = 2 + size := fun _ => rfl
    have whole : 2 ≤ block.bytes := by
      by_contra short
      have wrapped : cfg.sizeSub block.bytes 2 = block.bytes + cfg.sizeRange - 2 :=
        Nat.mod_eq_of_lt (by omega)
      omega
    rw [cfg.sizeSub_of_le _ _ whole (by omega)] at refused
    rw [claimed]
    omega

theorem openBlock_size {Key : Type} (sender : PouchRole) (malloc : Option Memory) (psa : PsaAead Key)
    (session : Session Key) (block decrypted : PouchBuf)
    (opened : (openBlock cfg sender malloc psa session block).block = some decrypted) :
    decrypted.bytes = decryptedSize cfg block := by
  cases malloc with
  | none => simp [openBlock, bufAlloc, Session.fail] at opened
  | some memory =>
    simp only [openBlock, bufAlloc, Option.map_some] at opened
    simp only [decryptedSize]
    split_ifs at opened ⊢ with refused
    · simp [Session.fail] at opened
    · cases held : session.key with
      | none => simp [held, Session.fail] at opened
      | some key =>
        simp only [held] at opened
        split at opened
        · simp [Session.fail] at opened
        · split_ifs at opened
          · simp [Session.fail] at opened
          · rw [← Option.some.inj opened]
            rfl

end Blocks

section Loop

variable {Key : Type} {cfg : Config}

structure DownlinkState.Bounded (cfg : Config) (state : DownlinkState) : Prop where
  pouchBuf : ∀ buf, state.pouchBuf = some buf → buf.data.bytes ≤ cfg.maxCiphertextBlockSize
  decryptQueue : ∀ block ∈ state.decryptQueue, block.data.bytes ≤ cfg.maxCiphertextBlockSize

theorem turn_bounded (push : PushState Key) (handling : HeaderHandling EncryptionInfo (Crypto Key))
    (malloc : Option Memory) (data : List UInt8) (bounded : push.state.Bounded cfg) :
    let turn := pushTurn cfg handling malloc push.framing data
    (push.turn turn).state.Bounded cfg ∧ ∀ size ∈ push.sizes cfg data turn, size ≤ cfg.maxCiphertextBlockSize := by
  intro turn
  have within : (∀ buf, turn.state.pouchBuf = some buf → buf.bytes ≤ cfg.maxCiphertextBlockSize) ∧
      ∀ sent ∈ turn.sent, sent.bytes ≤ cfg.maxCiphertextBlockSize := by
    apply (pushTurn_turned cfg handling malloc push.framing data).within
    intro buf held
    simp only [PushState.framing, Option.map_eq_some_iff] at held
    obtain ⟨whole, held, rfl⟩ := held
    exact bounded.pouchBuf whole held
  have next : (push.turn turn).state.Bounded cfg := by
    unfold PushState.turn
    cases held : push.state.pouchBuf with
    | none => exact ⟨by simp [held], bounded.decryptQueue⟩
    | some buf =>
      cases sent : turn.sent with
      | nil =>
        constructor
        next =>
          simp only [Option.map_eq_some_iff]
          rintro _ ⟨kept, isKept, rfl⟩
          exact within.1 kept isKept
        next => exact bounded.decryptQueue
      | cons block rest =>
        constructor
        next =>
          intro fresh isFresh
          cases left : turn.state.pouchBuf with
          | none => simp [left, bufHold, DownlinkState.blockDownlinkPush] at isFresh
          | some kept =>
            simp only [left, bufHold, DownlinkState.blockDownlinkPush, Option.some.injEq] at isFresh
            subst isFresh
            exact within.1 kept left
        next =>
          simp only [DownlinkState.blockDownlinkPush, List.mem_append, List.mem_singleton]
          rintro other (earlier | rfl)
          · exact bounded.decryptQueue other earlier
          · exact within.2 block (by simp [sent])
  refine ⟨next, ?_⟩
  intro size member
  cases held : push.state.pouchBuf with
  | none => simp [PushState.sizes, held] at member
  | some buf =>
    have before := bounded.pouchBuf buf held
    simp only [PushState.sizes, held, List.mem_cons, List.mem_map, Option.mem_toList, bufWrite_bytes,
      List.length_take, bufSizeGet] at member
    rcases member with rfl | ⟨last, isLast, rfl⟩
    · omega
    · exact next.pouchBuf last isLast

theorem loop_runs (call : PushCall Key) (fuel index : Nat) (push : PushState Key) (data : List UInt8)
    (enough : data.length ≤ fuel) (bounded : push.state.Bounded cfg) :
    (PushState.loop cfg call fuel index push data).state.Bounded cfg ∧
      ∃ sizes, PushRun cfg call index push data sizes (PushState.loop cfg call fuel index push data) ∧
        ∀ size ∈ sizes, size ≤ cfg.maxCiphertextBlockSize := by
  induction fuel generalizing index push data with
  | zero =>
    obtain rfl : data = [] := List.eq_nil_of_length_eq_zero (by omega)
    exact ⟨bounded, [], .done index push, nofun⟩
  | succ fuel ih =>
    simp only [PushState.loop]
    by_cases empty : data = []
    next =>
      subst empty
      exact ⟨bounded, [], .done index push, nofun⟩
    next =>
      have more : ¬ data.length = 0 := by simpa using empty
      have turn := turn_bounded push (call.handling cfg) (call.malloc index) data bounded
      have shorter := pushTurn_unread cfg (call.handling cfg) (call.malloc index) push.framing data more
      simp only [more, if_false]
      generalize runs : pushTurn cfg (call.handling cfg) (call.malloc index) push.framing data = turned at turn shorter ⊢
      cases ended : turned.returned with
      | true => exact ⟨turn.1, _, .returned index push data turned empty runs ended, turn.2⟩
      | false =>
        have left := shorter ended
        obtain ⟨next, sizes, rest, within⟩ := ih (index + 1) (push.turn turned) turned.unread (by omega) turn.1
        refine ⟨next, _, .next index push data turned sizes _ empty runs ended rest, ?_⟩
        intro size member
        rcases List.mem_append.mp member with here | later
        · exact turn.2 size here
        · exact within size later

end Loop

section Device

variable {Key : Type} {cfg : Config} {device next : Device Key}

theorem SmallStep.downlink_kept {event : Event} (small : SmallStep device event next)
    (other : event.party ≠ .downlink) : next.downlink = device.downlink := by
  cases small with
  | downlink _ pool crypto downlink on => exact absurd on other
  | _ => rfl

theorem CallTrace.downlink_kept {party : Party} {result : Device Key × List Event}
    (call : CallTrace cfg party device result) (other : party ≠ .downlink) :
    result.1.downlink = device.downlink := by
  apply call.trace.invariant (fun reached _ => reached.downlink = device.downlink)
    (fun event => event.party ≠ .downlink) _ _ [] rfl
  · intro before event after _ small elsewhere kept
    exact (small.downlink_kept elsewhere).trans kept
  · intro event member
    rcases Event.party_of_reportedBy (call.parties event member) with same | ⟨rfl, _⟩ | ⟨⟨block, rfl⟩, _⟩
    · rwa [same]
    · simp [Event.party]
    · simp [Event.party]

theorem start_bounded (malloc : Option Memory) (bounded : device.downlink.Bounded cfg) :
    (device.pouchDownlinkStart malloc).1.downlink.Bounded cfg := by
  constructor
  next =>
    intro buf fresh
    cases malloc with
    | none => simp [Device.pouchDownlinkStart, bufHold, bufAlloc] at fresh
    | some memory =>
      simp only [Device.pouchDownlinkStart, bufHold, bufAlloc, Option.map_some, Option.some.injEq] at fresh
      rw [← fresh]
      exact Nat.zero_le _
  next => exact bounded.decryptQueue

theorem decrypt_bounded (call : BlockCall Key) (bounded : device.downlink.Bounded cfg) :
    (device.decryptBlocks cfg call).1.downlink.Bounded cfg := by
  have taken : ∀ decrypted, (device.downlink.decryptBlocks decrypted).Bounded cfg := by
    intro decrypted
    have tail : ∀ block ∈ device.downlink.decryptQueue.tail, block.data.bytes ≤ cfg.maxCiphertextBlockSize :=
      fun block member => bounded.decryptQueue block (List.mem_of_mem_tail member)
    cases decrypted <;> exact ⟨bounded.pouchBuf, tail⟩
  simp only [Device.decryptBlocks]
  split_ifs
  · cases device.downlink.decryptQueue with
    | nil => exact taken none
    | cons block rest => exact taken (device.crypto.decryptBlock cfg call device.pool block).1
  · exact bounded

theorem step_bounded (op : DeviceOp Key) (formed : device.Formed cfg) (bounded : device.downlink.Bounded cfg) :
    (device.step cfg op).1.downlink.Bounded cfg := by
  have call := Device.step_call cfg device op formed
  have others : op.party ≠ .downlink → (device.step cfg op).1.downlink.Bounded cfg := by
    intro other
    rwa [call.downlink_kept other]
  cases op with
  | downlinkStart malloc => exact start_bounded malloc bounded
  | downlinkPush pushCall data =>
    exact (loop_runs pushCall data.length 0 ⟨device.pool, device.crypto, device.downlink⟩ data (Nat.le_refl _)
      bounded).1
  | decryptBlocks blockCall => exact decrypt_bounded blockCall bounded
  | consumeBlocks =>
    simp only [Device.step, Device.consumeBlocks]
    split_ifs
    · split <;> exact ⟨bounded.pouchBuf, bounded.decryptQueue⟩
    · exact bounded
  | _ => exact others nofun

theorem run_bounded (cfg : Config) (ops : List (DeviceOp Key)) :
    (History.run (Device.step cfg) ⟨.boot Key cfg, []⟩ ops).state.downlink.Bounded cfg := by
  have both := History.run_invariant (Device.step cfg) (fun _ _ => True)
    (fun reached => reached.state.Formed cfg ∧ reached.state.downlink.Bounded cfg) ⟨.boot Key cfg, []⟩ ops
    ⟨Device.boot_formed cfg, nofun, nofun⟩ (History.meets_of_forall _ _ _ _ fun _ _ _ => trivial) ?_
  · exact both.2
  · intro reached op _ holds
    exact ⟨(Device.step_traced cfg).formed reached.state op holds.1, step_bounded op holds.1 holds.2⟩

end Device

/-- Whatever comes from the network, the reassembly buffer stays within its allocation at all times, the
loop of `pouch_downlink_push` ends, and what a block is decrypted to stays within its own. -/
theorem network_buffers_within_allocation {Key : Type} (cfg : Config) (ops : List (DeviceOp Key)) :
    let device := (History.run (Device.step cfg) ⟨.boot Key cfg, []⟩ ops).state
    (∀ buf, device.downlink.pouchBuf = some buf → buf.data.bytes ≤ cfg.maxCiphertextBlockSize) ∧
      (∀ call data, ∃ sizes result, PushRun cfg call 0 ⟨device.pool, device.crypto, device.downlink⟩ data sizes result ∧
        (device.pouchDownlinkPush cfg call data).1.downlink = result.state ∧
        ∀ size ∈ sizes, size ≤ cfg.maxCiphertextBlockSize) ∧
      (cfg.encryption = .saead → ∀ block ∈ device.downlink.decryptQueue,
        decryptedSize cfg block.data ≤ cfg.maxPlaintextBlockSize ∧
          ∀ malloc psa session decrypted,
            (sessionDecryptBlock cfg malloc psa (session : Session Key) block.data).block = some decrypted →
            decrypted.bytes = decryptedSize cfg block.data) := by
  intro device
  have bounded := run_bounded cfg ops
  refine ⟨bounded.pouchBuf, ?_, ?_⟩
  · intro call data
    obtain ⟨_, sizes, runs, within⟩ := loop_runs call data.length 0
      ⟨device.pool, device.crypto, device.downlink⟩ data (Nat.le_refl _) bounded
    exact ⟨sizes, _, runs, rfl, within⟩
  · intro encrypted block member
    exact ⟨decryptedSize_within encrypted block.data (bounded.decryptQueue block member),
      fun malloc psa session decrypted => openBlock_size .server malloc psa session block.data decrypted⟩

-- A header of one byte, and a block of two bytes and their tag, in two pushes.
def pushedOps : List (DeviceOp Unit) :=
  let call : PushCall Unit :=
    ⟨fun raw => raw.head?.map fun _ =>
        (.saead ⟨.random (List.replicate 16 0), .server, .aesGcm, 9⟩ 1, 1),
      ⟨fun _ _ _ => some (), some⟩, fun _ => some fun _ => 0⟩
  [.downlinkStart (some fun _ => 0), .downlinkPush call [1, 0, 18, 7, 7, 7, 7, 7, 7, 7, 7, 7],
    .downlinkPush call [7, 7, 7, 7, 7, 7, 7, 7, 7, 0]]

theorem network_buffers_within_allocation_sample :
    let device := (History.run (Device.step (defaultConfig .saead)) ⟨.boot Unit (defaultConfig .saead), []⟩
      pushedOps).state
    device.downlink.decryptQueue.map (fun block => decryptedSize (defaultConfig .saead) block.data) = [4] ∧
      ∀ block ∈ device.downlink.decryptQueue,
        decryptedSize (defaultConfig .saead) block.data ≤ (defaultConfig .saead).maxPlaintextBlockSize :=
  ⟨by decide +kernel, fun block member =>
    ((network_buffers_within_allocation (defaultConfig .saead) pushedOps).2.2 rfl block member).1⟩

end Pouch
