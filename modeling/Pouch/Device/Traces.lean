import Pouch.Device.WriterTraces

set_option autoImplicit false

namespace Pouch

open ByteMemory Ledger

@[simp] theorem idsOf_nil : idsOf [] = 0 := rfl

@[simp] theorem idsOf_cons (buf : Buf) (rest : List Buf) : idsOf (buf :: rest) = {buf.id} + idsOf rest := rfl

@[simp] theorem idsOf_append (first second : List Buf) :
    idsOf (first ++ second) = idsOf first + idsOf second := by
  simp [idsOf]

section Framing

variable {Info Crypto : Type} (cfg : Config) (handling : HeaderHandling Info Crypto)

theorem pushBlock_sent (malloc : Option Memory) (buf : PouchBuf) :
    ((pushBlock cfg malloc buf).sent = [] ∧ (pushBlock cfg malloc buf).pouchBuf = some buf) ∨
      ∃ block, (pushBlock cfg malloc buf).sent = [block] := by
  simp only [pushBlock]
  split_ifs with field large complete longer
  · exact .inl ⟨rfl, rfl⟩
  · cases bufAlloc malloc <;> exact .inr ⟨_, rfl⟩
  · cases bufAlloc malloc <;> exact .inr ⟨_, rfl⟩
  · exact .inl ⟨rfl, rfl⟩
  · exact .inl ⟨rfl, rfl⟩

theorem pushTurn_sent (malloc : Option Memory) (state : Downlink Crypto) (data : List UInt8)
    (held : state.pouchBuf.isSome) :
    ((pushTurn cfg handling malloc state data).sent = [] ∧
      (pushTurn cfg handling malloc state data).state.pouchBuf.isSome) ∨
      ∃ block, (pushTurn cfg handling malloc state data).sent = [block] := by
  have block : ∀ buf, (pushBlock cfg malloc buf).sent = [] ∧ (pushBlock cfg malloc buf).pouchBuf.isSome ∨
      ∃ block, (pushBlock cfg malloc buf).sent = [block] := by
    intro buf
    rcases pushBlock_sent cfg malloc buf with ⟨kept, same⟩ | sent
    · exact .inl ⟨kept, by rw [same]; rfl⟩
    · exact .inr sent
  obtain ⟨buf, isHeld⟩ := Option.isSome_iff_exists.mp held
  simp only [pushTurn, isHeld]
  split_ifs with full header
  · exact .inl ⟨rfl, held⟩
  · exact block _
  · split
    · exact .inl ⟨rfl, rfl⟩
    · exact block _

end Framing

section Downlink

variable {Key : Type} (cfg : Config)

theorem exchange_turn (push : PushState Key) (handling : HeaderHandling EncryptionInfo (Crypto Key))
    (malloc : Option Memory) (data : List UInt8) :
    let next := push.turn (pushTurn cfg handling malloc push.framing data)
    Exchange push.pool push.state.held next.pool next.state.held := by
  unfold PushState.turn
  cases held : push.state.pouchBuf with
  | none =>
    simp only [DownlinkState.held, held]
    exact Exchange.refl _ _
  | some buf =>
    have sent := pushTurn_sent cfg handling malloc push.framing data (by simp [PushState.framing, held])
    generalize pushTurn cfg handling malloc push.framing data = turn at sent ⊢
    rcases sent with ⟨kept, some'⟩ | ⟨block, sent⟩
    · obtain ⟨contents, isKept⟩ := Option.isSome_iff_exists.mp some'
      simp only [kept, isKept, DownlinkState.held, held]
      exact Exchange.refl _ _
    · have fresh := exchange_hold push.pool .internal turn.state.pouchBuf
      simp only [sent, DownlinkState.held, DownlinkState.blockDownlinkPush, held]
      generalize bufHold push.pool .internal turn.state.pouchBuf = result at fresh ⊢
      obtain ⟨next, pool⟩ := result
      have framed := fresh.frame ({buf.id} + idsOf push.state.decryptQueue + idsOf push.state.consumeQueue)
      have ids : ((next.map Buf.id).toList : Multiset Nat) = idsOf next.toList := by
        cases next <;> rfl
      rw [zero_add, ids] at framed
      simp only [Option.toList_some, idsOf_cons, idsOf_nil, add_zero, idsOf_append]
      convert framed using 1
      abel

theorem exchange_loop (call : PushCall Key) (fuel index : Nat) (push : PushState Key) (data : List UInt8) :
    let next := PushState.loop cfg call fuel index push data
    Exchange push.pool push.state.held next.pool next.state.held := by
  induction fuel generalizing index push data with
  | zero => exact Exchange.refl _ _
  | succ fuel ih =>
    have turn := exchange_turn cfg push (call.handling cfg) (call.malloc index) data
    simp only [PushState.loop]
    split_ifs
    · exact Exchange.refl _ _
    · exact turn
    · exact turn.trans (ih _ _ _)

theorem downlinkStart_build (info : EncryptionInfo) (keys : KeySource Key) (crypto : Crypto Key) :
    (crypto.downlinkStart cfg info keys).2.isPlaintext = crypto.isPlaintext := by
  cases crypto with
  | none => cases info <;> rfl
  | saead state => rfl

theorem pushTurn_build (call : PushCall Key) (malloc : Option Memory) (state : Downlink (Crypto Key))
    (data : List UInt8) :
    (pushTurn cfg (call.handling cfg) malloc state data).state.crypto.isPlaintext =
      state.crypto.isPlaintext := by
  have parsed : ∀ view,
      (pouchDownlinkParseHeader cfg (call.handling cfg) state.crypto view).2.isPlaintext =
        state.crypto.isPlaintext := by
    intro view
    simp only [pouchDownlinkParseHeader]
    split
    · rfl
    · rename_i info headerLen _
      have build := downlinkStart_build cfg info call.keys state.crypto
      simp only [PushCall.handling]
      generalize state.crypto.downlinkStart cfg info call.keys = result at build ⊢
      obtain ⟨status, crypto⟩ := result
      cases status <;> exact build
  unfold pushTurn
  cases state.pouchBuf with
  | none => rfl
  | some buf =>
    simp only
    split_ifs
    · rfl
    · rfl
    · have build := parsed (pouchBufviewInit
        (bufWrite buf (data.take (min data.length (cfg.maxCiphertextBlockSize - bufSizeGet buf)))))
      generalize pouchDownlinkParseHeader cfg (call.handling cfg) state.crypto _ = result at build ⊢
      obtain ⟨outcome, crypto⟩ := result
      cases outcome <;> exact build

theorem turn_crypto (push : PushState Key) (turn : PushTurn (Crypto Key)) :
    (push.turn turn).crypto = turn.state.crypto := by
  unfold PushState.turn
  cases push.state.pouchBuf with
  | none => rfl
  | some buf => cases turn.sent <;> rfl

theorem loop_build (call : PushCall Key) (fuel index : Nat) (push : PushState Key) (data : List UInt8) :
    (PushState.loop cfg call fuel index push data).crypto.isPlaintext = push.crypto.isPlaintext := by
  induction fuel generalizing index push data with
  | zero => rfl
  | succ fuel ih =>
    have turn := pushTurn_build cfg call (call.malloc index) push.framing data
    rw [← turn_crypto push] at turn
    simp only [PushState.loop]
    split_ifs
    · rfl
    · exact turn
    · exact (ih _ _ _).trans turn

theorem decryptBlock_build (call : BlockCall Key) (pool : Ledger) (block : Buf) (crypto : Crypto Key) :
    (crypto.decryptBlock cfg call pool block).2.1.isPlaintext = crypto.isPlaintext := by
  cases crypto <;> rfl

namespace Device

variable (device : Device Key)

theorem downlinkStart_trace (malloc : Option Memory) :
    Trace (PartyStep .downlink) device (device.pouchDownlinkStart malloc).2
      (device.pouchDownlinkStart malloc).1 := by
  have fresh := exchange_hold device.pool .internal (bufAlloc malloc)
  unfold pouchDownlinkStart
  generalize bufHold device.pool .internal (bufAlloc malloc) = result at fresh ⊢
  obtain ⟨next, pool⟩ := result
  refine .single ⟨.downlink device _ pool device.crypto _ rfl rfl ?_, rfl⟩
  have framed := fresh.frame device.downlink.held
  have ids : ((next.map Buf.id).toList : Multiset Nat) = idsOf next.toList := by
    cases next <;> rfl
  rw [zero_add, ids] at framed
  convert framed using 1
  simp only [DownlinkState.held, Event.overwritten]
  abel

theorem downlinkPush_trace (call : PushCall Key) (data : List UInt8) :
    Trace (PartyStep .downlink) device (device.pouchDownlinkPush cfg call data).2
      (device.pouchDownlinkPush cfg call data).1 := by
  have exchange := exchange_loop cfg call data.length 0 ⟨device.pool, device.crypto, device.downlink⟩ data
  have build := loop_build cfg call data.length 0 ⟨device.pool, device.crypto, device.downlink⟩ data
  refine .single ⟨.downlink device _ _ _ _ rfl build ?_, rfl⟩
  simpa [Event.overwritten] using exchange

theorem decryptBlocks_trace (call : BlockCall Key) :
    Trace (PartyStep .downlink) device (device.decryptBlocks cfg call).2 (device.decryptBlocks cfg call).1 := by
  unfold decryptBlocks
  split_ifs
  · cases queue : device.downlink.decryptQueue with
    | nil =>
      refine .single ⟨.downlink device _ device.pool device.crypto _ rfl rfl ?_, rfl⟩
      simp only [DownlinkState.held, DownlinkState.decryptBlocks, queue, List.tail_nil, Event.overwritten,
        Option.toList_none, idsOf_nil, add_zero]
      exact Exchange.refl _ _
    | cons block rest =>
      have exchange := exchange_decryptBlock cfg call device.pool block device.crypto
      have build := decryptBlock_build cfg call device.pool block device.crypto
      simp only
      generalize device.crypto.decryptBlock cfg call device.pool block = result at exchange build ⊢
      obtain ⟨decrypted, crypto, pool⟩ := result
      refine .single ⟨.downlink device _ pool crypto _ rfl build ?_, rfl⟩
      have framed := exchange.frame
        (idsOf device.downlink.pouchBuf.toList + idsOf rest + idsOf device.downlink.consumeQueue)
      simp only [DownlinkState.held, queue, idsOf_cons, Event.overwritten, Option.toList_none, idsOf_nil]
      cases decrypted with
      | none =>
        convert framed using 1
        · abel
        · simp [DownlinkState.decryptBlocks, queue]
      | some plain =>
        convert framed using 1
        · abel
        · simp only [DownlinkState.decryptBlocks, queue, List.tail_cons, idsOf_append, idsOf_cons, idsOf_nil,
            Option.map_some, Option.toList_some, Multiset.coe_singleton]
          abel
  · exact .nil device

theorem consumeBlocks_trace :
    Trace (PartyStep .downlink) device device.consumeBlocks.2 device.consumeBlocks.1 := by
  unfold consumeBlocks
  split_ifs
  · cases queue : device.downlink.consumeQueue with
    | nil =>
      refine .single ⟨.downlink device _ device.pool device.crypto _ rfl rfl ?_, rfl⟩
      simp only [DownlinkState.held, DownlinkState.consumeBlocks, queue, List.tail_nil, Event.overwritten,
        Option.toList_none, idsOf_nil, add_zero]
      exact Exchange.refl _ _
    | cons block rest =>
      refine .single ⟨.downlink device _ _ device.crypto _ rfl rfl ?_, rfl⟩
      have framed := (exchange_free device.pool block.id).frame
        (idsOf device.downlink.pouchBuf.toList + idsOf device.downlink.decryptQueue + idsOf rest)
      simp only [DownlinkState.held, queue, idsOf_cons, Event.overwritten, Option.toList_none, idsOf_nil]
      convert framed using 1
      · abel
      · simp [DownlinkState.consumeBlocks, queue]
  · exact .nil device

theorem boot_formed : (Device.boot Key cfg).Formed cfg := ⟨by simp [boot], by simp [boot]⟩

theorem inTransport_call (party : Party) (formed : device.Formed cfg)
    (call : Device Key → Device Key × List Event)
    (traced : device.starting = none → CallTrace cfg party device (call device)) :
    CallTrace cfg party device (device.inTransport call) := by
  unfold inTransport
  split_ifs with busy
  · exact ⟨.nil device, formed, by simp⟩
  · exact traced (by simpa using busy)

theorem step_call (op : DeviceOp Key) (formed : device.Formed cfg) :
    CallTrace cfg op.party device (device.step cfg op) := by
  cases op with
  | fill maxlen =>
    apply inTransport_call cfg device _ formed
    intro idle
    have reads := pouchUplinkFill_reads maxlen device formed idle
    exact ⟨reads.trace, reads.formed, reads.parties⟩
  | finish => exact inTransport_call cfg device _ formed _ (pouchUplinkFinish_call device formed)
  | entryWrite call => exact partyTrace_call (entryWrite_trace cfg device call) nofun nofun formed
  | streamOpen path contentType structAllocated malloc =>
    exact partyTrace_call (streamOpen_trace device path contentType structAllocated malloc) nofun nofun formed
  | streamWrite handle data malloc =>
    exact partyTrace_call (streamWrite_trace cfg device handle data malloc) nofun nofun formed
  | streamClose handle => exact partyTrace_call (streamClose_trace cfg device handle) nofun nofun formed
  | enqueue malloc bytes => exact partyTrace_call (enqueueBlock_trace device malloc bytes) nofun nofun formed
  | closeCall => exact partyTrace_call (closeCall_trace device) nofun nofun formed
  | closeReturn lock => exact partyTrace_call (closeReturn_trace cfg device lock) nofun nofun formed
  | processBlocks calls => exact partyTrace_call (processBlocks_trace cfg calls device) nofun nofun formed
  | startActivate => exact partyTrace_call (startActivate_trace device) nofun nofun formed
  | startSession call => exact partyTrace_call (startSession_trace cfg call device) nofun nofun formed
  | startPouch => exact partyTrace_call (startPouch_trace device) nofun nofun formed
  | startHeader call => exact partyTrace_call (startHeader_trace call device) nofun nofun formed
  | downlinkStart malloc => exact partyTrace_call (downlinkStart_trace device malloc) nofun nofun formed
  | downlinkPush call data => exact partyTrace_call (downlinkPush_trace cfg device call data) nofun nofun formed
  | decryptBlocks call => exact partyTrace_call (decryptBlocks_trace cfg device call) nofun nofun formed
  | consumeBlocks => exact partyTrace_call (consumeBlocks_trace device) nofun nofun formed

theorem step_traced : History.Traced (fun (device : Device Key) op => device.step cfg op) SmallStep (Formed cfg) :=
  ⟨fun device op formed => (step_call cfg device op formed).trace,
    fun device op formed => (step_call cfg device op formed).formed⟩

end Device

end Downlink

end Pouch
