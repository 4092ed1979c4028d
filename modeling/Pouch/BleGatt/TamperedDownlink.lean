import Pouch.BleGatt.SealedDownlink

set_option autoImplicit false

/-!
# Tampering on the downlink characteristic

A peer may write what it likes, and the other parties may take any steps in between: behind the header
of a sealed pouch only blocks of that pouch get through.
-/

namespace Pouch

open ByteMemory

section Framed

variable {Info State : Type} {cfg : Config} {handling : HeaderHandling Info State}

theorem Cut.sized {malloc : Option Memory} {buf : PouchBuf} {pushed : PushedBlock}
    (cut : Cut cfg malloc buf pushed) : ∀ sent ∈ pushed.sent, 2 ≤ sent.bytes := by
  cases cut with
  | waiting => simp
  | oversized => simp
  | uncut field =>
    simp only [List.mem_singleton, forall_eq]
    omega
  | cut memory next sent allocated supported sized split =>
    simp only [List.mem_singleton, forall_eq]
    omega

variable (cfg handling) in
theorem pushTurn_sized (malloc : Option Memory) (state : Downlink State) (data : List UInt8) :
    ∀ sent ∈ (pushTurn cfg handling malloc state data).sent, 2 ≤ sent.bytes := by
  have turned := pushTurn_turned cfg handling malloc state data
  generalize turnView cfg handling state data = view at turned
  generalize pushTurn cfg handling malloc state data = turn at turned ⊢
  cases turned with
  | missing => simp
  | full => simp
  | undecoded => simp
  | header buf written unread next info headerLen pushed held room header copied decoded cut => exact cut.sized
  | blocks buf written unread pushed held room header copied cut => exact cut.sized

theorem pushLoop_sized (fuel : Nat) (malloc : Nat → Option Memory) (state : Downlink State) (data : List UInt8) :
    ∀ sent ∈ (pushLoop cfg handling fuel malloc state data).2, 2 ≤ sent.bytes := by
  induction fuel generalizing malloc state data with
  | zero => simp [pushLoop]
  | succ fuel ih =>
    have first := pushTurn_sized cfg handling (malloc 0) state data
    simp only [pushLoop]
    split_ifs
    · simp
    · exact first
    · intro sent member
      rcases List.mem_append.mp member with here | later
      · exact first sent here
      · exact ih _ _ _ sent later

end Framed

section Handed

variable {Key : Type} {cfg : Config} {device : Device Key}

structure AllHanded (cfg : Config) (device : Device Key) : Prop where
  bounded : device.downlink.Bounded cfg
  sized : ∀ block ∈ device.downlink.decryptQueue, 2 ≤ block.data.bytes

theorem AllHanded.handed (all : AllHanded cfg device) (block : Buf) (member : block ∈ device.downlink.decryptQueue) :
    Handed cfg block.data :=
  ⟨all.sized block member, Nat.lt_of_le_of_lt (all.bounded.decryptQueue block member) cfg.maxCiphertextBlockSize_fits⟩

theorem AllHanded.push (all : AllHanded cfg device) (formed : device.Formed cfg) (call : PushCall Key)
    (data : List UInt8) : AllHanded cfg (device.pouchDownlinkPush cfg call data).1 := by
  obtain ⟨_, blocks, queued, sent⟩ := device.pouchDownlinkPush_refines cfg call data
  refine ⟨step_bounded (.downlinkPush call data) formed all.bounded, ?_⟩
  rw [queued.decryptQueue]
  intro block member
  rcases List.mem_append.mp member with old | new
  · exact all.sized block old
  · exact pushLoop_sized _ _ _ _ block.data (sent ▸ List.mem_map_of_mem new)

theorem AllHanded.write (all : AllHanded cfg device) (formed : device.Formed cfg) (write : DownlinkWrite Key) :
    AllHanded cfg (downlinkWrite cfg write device).2.1 := by
  rcases downlinkWrite_calls cfg device write with same | ⟨packet, _, pushed⟩
  next =>
    rw [same]
    exact all
  next =>
    rw [pushed]
    cases packet.isFirst with
    | false => exact all.push formed write.call packet.payload
    | true =>
      have started : AllHanded cfg (device.pouchDownlinkStart write.malloc).1 :=
        ⟨start_bounded write.malloc all.bounded, all.sized⟩
      exact started.push ((Device.step_traced cfg).formed device (.downlinkStart write.malloc) formed)
        write.call packet.payload

theorem AllHanded.step (all : AllHanded cfg device) (formed : device.Formed cfg) (op : BleOp Key) :
    AllHanded cfg (bleStep cfg device op).1 := by
  cases op with
  | write write => exact all.write formed write
  | other op other =>
    refine ⟨step_bounded op formed all.bounded, ?_⟩
    cases otherStep_cases formed op other with
    | decrypt call is =>
      have moved := (decryptBlocks_effect cfg call device).2.2.2
      subst is
      simp only [bleStep, Device.step]
      rw [moved]
      split_ifs
      · exact fun block member => all.sized block (List.mem_of_mem_tail member)
      · exact all.sized
    | consume is =>
      subst is
      simp only [bleStep, Device.step, Device.consumeBlocks]
      split_ifs
      · split <;> exact all.sized
      · exact all.sized
    | elsewhere kept silent =>
      simp only [bleStep]
      rw [kept]
      exact all.sized

end Handed

section Decryption

variable {Key : Type} {cfg : Config}

variable (cfg) in
theorem decryptBlock_outcome (state : Saead Key) (call : BlockCall Key) (pool : Ledger) (block : Buf) :
    let outcome := sessionDecryptBlock cfg call.malloc call.psa state.downlink block.data
    let result := (Crypto.saead state).decryptBlock cfg call pool block
    result.1.map Buf.data = outcome.block ∧
      result.2.1.Receives fun after _ => after.key = outcome.session.key ∧ after.pouch = outcome.session.pouch := by
  intro outcome result
  have missing : call.malloc = none → outcome.block = none := by
    intro unallocated
    simp only [outcome, sessionDecryptBlock, openBlock, unallocated]
    rfl
  simp only [result, Crypto.decryptBlock, downlinkBlockDecrypt]
  cases decrypted : outcome.block with
  | none =>
    simp only [outcome] at decrypted
    refine ⟨?_, outcome.session, state.server, rfl, rfl, rfl⟩
    cases call.malloc <;> rfl
  | some buf =>
    cases allocated : call.malloc with
    | none => simp [missing allocated] at decrypted
    | some memory =>
      simp only [outcome, allocated] at decrypted
      exact ⟨rfl, _, _, rfl, by simp only [outcome, allocated], by simp only [outcome, allocated]⟩

end Decryption

section Tampering

variable {Key : Type} {cfg : Config} {aead : Aead Key} {calls : List (AeadCall Key)} {key : Key}
  {device : Device Key} {log : List PipelineEvent}

def passedBlocks (log : List PipelineEvent) : List Buf := (decryptions log).filterMap Prod.snd

/-- What a peer may do, and all that is assumed of the AEAD: it writes anything but another header that is
accepted, and cannot make a ciphertext that the server has not made. -/
def Tampers (cfg : Config) (aead : Aead Key) (calls : List (AeadCall Key))
    (reached : History (Device Key) PipelineEvent) : BleOp Key → Prop
  | .write write => ∀ packet, packetizerDecode write.buf = .ok packet →
      (startedBy write packet reached.state).downlink.pouchHeader = false →
        (downlinkWrite cfg write reached.state).2.1.downlink.pouchHeader = false
  | .other (.decryptBlocks call) _ =>
      (call.psa = aead.decrypt ∨ call.psa = fun _ => none) ∧
        ∀ session seen block rest, reached.state.crypto.receiving = some (session, seen) →
          reached.state.downlink.decryptQueue = block :: rest →
            Authentic aead calls ⟨session, []⟩ ⟨block.data, none, false⟩
  | .other _ _ => True

theorem downlinkWrite_crypto (write : DownlinkWrite Key)
    (headerless : ∀ packet, packetizerDecode write.buf = .ok packet →
      (startedBy write packet device).downlink.pouchHeader = false →
        (downlinkWrite cfg write device).2.1.downlink.pouchHeader = false) :
    (downlinkWrite cfg write device).2.1.crypto = device.crypto := by
  cases decoded : packetizerDecode write.buf with
  | error err => simp only [downlinkWrite, decoded]
  | ok packet =>
    have made := downlinkWrite_decoded cfg device write packet decoded
    have crypto := startedBy_crypto write packet device
    have kept := headerless packet decoded
    have effect := loop_effect cfg write.call packet.payload.length 0
      ⟨(startedBy write packet device).pool, (startedBy write packet device).crypto,
        (startedBy write packet device).downlink⟩ packet.payload
    rw [made] at kept ⊢
    by_cases header : (startedBy write packet device).downlink.pouchHeader = true
    next => exact (effect.behind header).2.trans crypto
    next =>
      rw [Bool.not_eq_true] at header
      exact (effect.refused (kept header)).1.trans crypto

structure Genuine (aead : Aead Key) (calls : List (AeadCall Key)) (key : Key) (device : Device Key)
    (log : List PipelineEvent) : Prop where
  session : device.crypto.Receives fun session _ => session.key = none ∨
    PrefixInvariant aead calls key ⟨session, (passedBlocks log).map Buf.data⟩
  passed : (passedBlocks log).map (·.data.contents) <+: calls.map AeadCall.plaintext

theorem PrefixInvariant.sessionEnd {session : Session Key} {returned : List PouchBuf}
    (invariant : session.key = none ∨ PrefixInvariant aead calls key ⟨session, returned⟩) :
    (Pouch.sessionEnd session).key = none ∨ PrefixInvariant aead calls key ⟨Pouch.sessionEnd session, returned⟩ := by
  simp only [Pouch.sessionEnd]
  split_ifs
  · exact .inl rfl
  · exact invariant

theorem Genuine.silent (genuine : Genuine aead calls key device log) {next : Device Key}
    {events : List PipelineEvent} (quiet : decryptions (log ++ events) = decryptions log)
    (session : next.crypto.Receives fun session _ => session.key = none ∨
      PrefixInvariant aead calls key ⟨session, (passedBlocks log).map Buf.data⟩) :
    Genuine aead calls key next (log ++ events) := by
  have same : passedBlocks (log ++ events) = passedBlocks log := by simp only [passedBlocks, quiet]
  exact ⟨by rw [same]; exact session, by rw [same]; exact genuine.passed⟩

theorem openBlock_keyless (session : Session Key) (call : BlockCall Key) (block : PouchBuf)
    (handed : Handed cfg block) (keyless : session.key = none) :
    (sessionDecryptBlock cfg call.malloc call.psa session block).block = none ∧
      (sessionDecryptBlock cfg call.malloc call.psa session block).session = session := by
  rcases openBlock_cases handed (openBlock cfg .server call.malloc call.psa session block) rfl with
    ⟨same, failed⟩ | ⟨other, _, _, _, held, _⟩
  · exact ⟨failed, same⟩
  · simp [keyless] at held

theorem Genuine.decrypt (genuine : Genuine aead calls key device log) (all : AllHanded cfg device)
    (chained : Chained aead [] calls) (distinct : (calls.map aead.tag).Nodup) (room : calls.length < 2 ^ 32)
    (call : BlockCall Key) (psa : call.psa = aead.decrypt ∨ call.psa = fun _ => none)
    (authentic : ∀ session seen block rest, device.crypto.receiving = some (session, seen) →
      device.downlink.decryptQueue = block :: rest → Authentic aead calls ⟨session, []⟩ ⟨block.data, none, false⟩) :
    Genuine aead calls key (device.decryptBlocks cfg call).1
      (log ++ (device.decryptBlocks cfg call).2.filterMap Event.pipeline) := by
  simp only [Device.decryptBlocks]
  split_ifs with pending
  next =>
    cases queue : device.downlink.decryptQueue with
    | nil =>
      refine genuine.silent ?_ genuine.session
      simp [decryptions, Event.pipeline, PipelineEvent.decryption]
    | cons block rest =>
      obtain ⟨session, seen, receiving, invariant⟩ := genuine.session
      obtain ⟨uplink, crypto⟩ := Crypto.receiving_some receiving
      have handed := all.handed block (by rw [queue]; exact List.mem_cons_self)
      obtain ⟨returned, after, record, still, sameKey, samePouch⟩ :=
        decryptBlock_outcome cfg ⟨uplink, session, seen⟩ call device.pool block
      simp only [crypto, List.filterMap_cons, List.filterMap_nil, Event.pipeline]
      generalize (Crypto.saead ⟨uplink, session, seen⟩).decryptBlock cfg call device.pool block = result
        at returned still ⊢
      obtain ⟨decrypted, next, pool⟩ := result
      have made : passedBlocks (log ++ [.decrypted (some block) decrypted]) = passedBlocks log ++ decrypted.toList := by
        cases decrypted <;> simp [passedBlocks, PipelineEvent.decryption]
      rcases invariant with keyless | invariant
      next =>
        obtain ⟨failed, same⟩ := openBlock_keyless session call block.data handed keyless
        rw [failed, Option.map_eq_none_iff] at returned
        subst returned
        rw [same, keyless] at sameKey
        refine ⟨⟨after, record, still, .inl sameKey⟩, ?_⟩
        rw [made]
        simpa using genuine.passed
      next =>
        have real : ∃ psaFails : Bool, call.psa = fun made => if psaFails then none else aead.decrypt made := by
          rcases psa with works | fails
          · exact ⟨false, works⟩
          · exact ⟨true, fails⟩
        obtain ⟨psaFails, real⟩ := real
        have stepped := invariant.step chained distinct room ⟨block.data, call.malloc, psaFails⟩ handed
          (authentic session seen block rest receiving queue)
        simp only [History.record, receiveStep, ← real] at stepped
        have outputs : (passedBlocks log).map Buf.data ++
            (sessionDecryptBlock cfg call.malloc call.psa session block.data).block.toList =
              (passedBlocks log ++ decrypted.toList).map Buf.data := by
          rw [← returned, List.map_append]
          cases decrypted <;> rfl
        rw [outputs] at stepped
        have counted := (List.take_prefix ((passedBlocks log ++ decrypted.toList).map Buf.data).length calls).map
          AeadCall.plaintext
        rw [← stepped.returned, List.map_map] at counted
        refine ⟨⟨after, record, still, .inr ?_⟩, ?_⟩
        · rw [made]
          have index : after.pouch.blockIndex.toNat = _ :=
            (congrArg (fun pouch => pouch.blockIndex.toNat) samePouch).trans stepped.index
          have ad : after.pouch.ad.val = _ := congrArg (fun pouch => pouch.ad.val) samePouch
          exact ⟨sameKey.trans stepped.held, stepped.count, index, stepped.returned,
            fun place before count at' => ad.trans (stepped.ad place before count at')⟩
        · rw [made]
          exact counted
  next => simpa using genuine

theorem Genuine.step (genuine : Genuine aead calls key device log) (all : AllHanded cfg device)
    (formed : device.Formed cfg) (chained : Chained aead [] calls) (distinct : (calls.map aead.tag).Nodup)
    (room : calls.length < 2 ^ 32) (op : BleOp Key) (tampers : Tampers cfg aead calls ⟨device, log⟩ op) :
    Genuine aead calls key (bleStep cfg device op).1 (log ++ (bleStep cfg device op).2) := by
  cases op with
  | write write =>
    have same := downlinkWrite_crypto write tampers
    refine genuine.silent (by simp [bleStep]) ?_
    exact genuine.session.same (congrArg Crypto.receiving same)
  | other op other =>
    by_cases downlink : op.party = .downlink
    next =>
      cases op with
      | downlinkStart malloc => simp [DeviceOp.isDownlinkCall] at other
      | downlinkPush call data => simp [DeviceOp.isDownlinkCall] at other
      | decryptBlocks call => exact genuine.decrypt all chained distinct room call tampers.1 tampers.2
      | consumeBlocks =>
        simp only [bleStep, Device.step, Device.consumeBlocks]
        split_ifs
        · split <;> exact genuine.silent (by simp [decryptions, Event.pipeline, PipelineEvent.decryption]) genuine.session
        · exact genuine.silent (by simp) genuine.session
      | _ => simp [DeviceOp.party] at downlink
    next =>
      have session := step_receives formed op downlink _ (fun _ _ _ => PrefixInvariant.sessionEnd) genuine.session
      cases otherStep_cases formed op other with
      | decrypt call is => simp [is, DeviceOp.party] at downlink
      | consume is => simp [is, DeviceOp.party] at downlink
      | elsewhere kept silent => exact genuine.silent (by simp [bleStep, silent]) session

theorem run_handed (ops : List (BleOp Key)) (formed : device.Formed cfg) (all : AllHanded cfg device) :
    AllHanded cfg (History.run (bleStep cfg) ⟨device, log⟩ ops).state := by
  have both := History.run_invariant (bleStep cfg) (fun _ _ => True)
    (fun reached => reached.state.Formed cfg ∧ AllHanded cfg reached.state) ⟨device, log⟩ ops ⟨formed, all⟩
    (History.meets_of_forall _ _ _ _ fun _ _ _ => trivial) ?_
  · exact both.2
  · exact fun reached op _ both => ⟨bleStep_formed both.1 op, both.2.step both.1 op⟩

theorem Genuine.run (ops : List (BleOp Key)) (genuine : Genuine aead calls key device []) (all : AllHanded cfg device)
    (formed : device.Formed cfg) (chained : Chained aead [] calls) (distinct : (calls.map aead.tag).Nodup)
    (room : calls.length < 2 ^ 32)
    (tampers : History.Meets (bleStep cfg) (Tampers cfg aead calls) ⟨device, []⟩ ops) :
    let run := History.run (bleStep cfg) ⟨device, []⟩ ops
    Genuine aead calls key run.state run.log := by
  have holds := History.run_invariant (bleStep cfg) (Tampers cfg aead calls)
    (fun reached => reached.state.Formed cfg ∧ AllHanded cfg reached.state ∧
      Genuine aead calls key reached.state reached.log) ⟨device, []⟩ ops ⟨formed, all, genuine⟩ tampers ?_
  · exact holds.2.2
  · rintro reached op allowed ⟨formed, all, genuine⟩
    exact ⟨bleStep_formed formed op, all.step formed op,
      genuine.step all formed chained distinct room op allowed⟩

variable (cfg) in
theorem consumed_of_parts (earlier ops : List (BleOp Key)) :
    let before := History.run (bleStep cfg) ⟨.boot Key cfg, []⟩ earlier
    let run := History.run (bleStep cfg) ⟨before.state, []⟩ ops
    consumedBlocks run.log <+: before.state.downlink.consumeQueue ++ passedBlocks run.log := by
  intro before run
  have empty : Pipelined (Device.boot Key cfg) [] := .empty _ rfl rfl rfl rfl
  obtain ⟨formed, pipelined⟩ := run_pipelined earlier (Device.boot_formed cfg) empty
  obtain ⟨_, whole⟩ := run_pipelined ops formed pipelined
  have split := History.run_log (bleStep cfg) before.state before.log ops
  have first := pipelined.results
  have second := whole.results
  change (decryptions (History.run (bleStep cfg) ⟨before.state, before.log⟩ ops).log).filterMap Prod.snd =
    consumedBlocks (History.run (bleStep cfg) ⟨before.state, before.log⟩ ops).log ++ _ at second
  change (decryptions before.log).filterMap Prod.snd = consumedBlocks before.log ++ _ at first
  rw [split] at second
  simp only [decryptions, consumedBlocks, List.flatMap_append, List.filterMap_append] at first second
  rw [first, List.append_assoc, List.append_assoc, List.append_cancel_left_eq] at second
  exact ⟨_, second.symm⟩

/-- Once the header of a sealed pouch has been accepted, nothing that a peer writes, no step of another party
and no end of the session makes the handlers see anything but the next blocks of that pouch, behind what was
already waiting for them. -/
theorem tampering_never_consumed (earlier ops : List (BleOp Key)) (sending : Session Key)
    (blocks : List FramedBlock) (keyed : sending.key = some key) (first : sending.pouch.blockIndex = 0)
    (countable : blocks.length < 2 ^ 32) (distinct : ((sealRun cfg aead sending blocks).map aead.tag).Nodup)
    (opened : (History.run (bleStep cfg) ⟨.boot Key cfg, []⟩ earlier).state.crypto.Receives fun session _ =>
      InStep sending session)
    (tampers : History.Meets (bleStep cfg) (Tampers cfg aead (sealRun cfg aead sending blocks))
      ⟨(History.run (bleStep cfg) ⟨.boot Key cfg, []⟩ earlier).state, []⟩ ops) :
    let before := (History.run (bleStep cfg) ⟨.boot Key cfg, []⟩ earlier).state
    let run := History.run (bleStep cfg) ⟨before, []⟩ ops
    (consumedBlocks run.log).map (·.data.contents) <+:
      before.downlink.consumeQueue.map (·.data.contents) ++ blocks.map FramedBlock.contents := by
  intro before run
  have room : sending.pouch.blockIndex.toNat + blocks.length < 2 ^ 32 := by
    rw [first, UInt32.toNat_zero, Nat.zero_add]
    exact countable
  obtain ⟨chained, inputs⟩ := sealRun_chained cfg aead sending keyed blocks room
  have noData : sending.adArgument = [] := by
    rw [Session.adArgument, first, if_neg (UInt32.lt_irrefl 0)]
  rw [noData] at chained
  have count := congrArg List.length inputs
  rw [List.length_map, List.length_map] at count
  obtain ⟨session, seen, receiving, inStep⟩ := opened
  have initial : Genuine aead (sealRun cfg aead sending blocks) key before [] := by
    refine ⟨⟨session, seen, receiving, .inr ⟨inStep.key.symm.trans keyed, Nat.zero_le _, ?_, rfl,
      fun index _ length => absurd length (Nat.zero_ne_add_one index)⟩⟩, List.nil_prefix⟩
    rw [← inStep.index, first]
    rfl
  have empty : Pipelined (Device.boot Key cfg) [] := .empty _ rfl rfl rfl rfl
  obtain ⟨formed, _⟩ := run_pipelined earlier (Device.boot_formed cfg) empty
  have bootHanded : AllHanded cfg (Device.boot Key cfg) :=
    ⟨⟨by simp [Device.boot], by simp [Device.boot]⟩, by simp [Device.boot]⟩
  have all : AllHanded cfg before := run_handed earlier (Device.boot_formed cfg) bootHanded
  have genuine := initial.run ops all formed chained distinct (by omega) tampers
  have consumed := (consumed_of_parts cfg earlier ops).map fun block : Buf => block.data.contents
  rw [List.map_append] at consumed
  have passed := genuine.passed
  rw [plaintexts_sent blocks inputs] at passed
  exact consumed.trans (List.prefix_append_right_inj _ |>.mpr passed)

end Tampering

section Sample

def sealedCalls : List (AeadCall Unit) :=
  sealRun (defaultConfig .saead) nonceAead sampleSealed.sending sampleSealed.blocks

-- The header of the sealed pouch, and then its first block two times.
def openingWrite : List (BleOp Unit) := [sealedWrite (0x01 :: sampleHeader)]

def replayedWrites : List (BleOp Unit) :=
  [sealedWrite (0x00 :: (sealedFrame 0).bytes), sealedWrite (0x00 :: (sealedFrame 0).bytes), sealedDecrypt,
    sealedDecrypt, sampleConsume, sampleConsume]

theorem first_frame_authentic (device : Device Unit)
    (frame : device.downlink.decryptQueue.head?.map (·.data.contents) = some (sealedFrame 0).bytes)
    (made : ∀ pair ∈ device.crypto.receiving,
      (nonceAead.decrypt (pair.1.aeadCall .server () (sealedFrame 0).body)).isNone = true ∨
        pair.1.aeadCall .server () [0xc0] ∈ sealedCalls ∧
          (sealedFrame 0).body = nonceAead.encrypt (pair.1.aeadCall .server () [0xc0]))
    (session : Session Unit) (seen : ServerSeen) (block : Buf) (rest : List Buf)
    (receiving : device.crypto.receiving = some (session, seen))
    (queue : device.downlink.decryptQueue = block :: rest) :
    Authentic nonceAead sealedCalls ⟨session, []⟩ ⟨block.data, none, false⟩ := by
  intro key input output held contents decrypted
  rw [queue, List.head?_cons, Option.map_some, Option.some.injEq] at frame
  have sameInput : input = (sealedFrame 0).body := by
    have split : putBe16 (sealedFrame 0).body.length ++ (sealedFrame 0).body = putBe16 input.length ++ input :=
      frame.symm.trans contents
    exact (List.append_inj split rfl).2.symm
  subst sameInput
  rcases made (session, seen) (by rw [receiving]; rfl) with rejected | ⟨member, ciphertext⟩
  · have same : nonceAead.decrypt (session.aeadCall .server () (sealedFrame 0).body) = some output := decrypted
    rw [same] at rejected
    cases rejected
  · exact ⟨_, member, rfl, ciphertext⟩

theorem replay_never_consumed :
    let before := (History.run (bleStep (defaultConfig .saead)) ⟨.boot Unit (defaultConfig .saead), []⟩ openingWrite).state
    let run := History.run (bleStep (defaultConfig .saead)) ⟨before, []⟩ replayedWrites
    (consumedBlocks run.log).map (·.data.contents) = [[0x00, 0x01, 0xc0]] ∧
      (consumedBlocks run.log).map (·.data.contents) <+:
        before.downlink.consumeQueue.map (·.data.contents) ++ sampleSealed.blocks.map FramedBlock.contents := by
  intro before run
  have opened : before.crypto.Receives fun session _ => InStep sampleSealed.sending session :=
    ⟨_, _, rfl, rfl, rfl, rfl, rfl, fun later => absurd later (by decide)⟩
  have written (reached : History (Device Unit) PipelineEvent) (header : reached.state.downlink.pouchHeader = true) :
      Tampers (defaultConfig .saead) nonceAead sealedCalls reached
        (sealedWrite (0x00 :: (sealedFrame 0).bytes)) := by
    intro packet decoded closed
    obtain rfl := Except.ok.inj decoded
    exact absurd (header.symm.trans closed) (by decide)
  refine ⟨by decide +kernel, ?_⟩
  refine tampering_never_consumed openingWrite replayedWrites sampleSealed.sending sampleSealed.blocks rfl rfl
    (by decide) (by decide +kernel) opened ⟨written _ ?_, written _ ?_, ⟨.inl rfl, ?_⟩, ⟨.inl rfl, ?_⟩, trivial, trivial,
      trivial⟩
  · decide +kernel
  · decide +kernel
  · exact first_frame_authentic _ (by decide +kernel) (by decide +kernel)
  · exact first_frame_authentic _ (by decide +kernel) (by decide +kernel)

end Sample

end Pouch
