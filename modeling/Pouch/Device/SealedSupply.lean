import Pouch.Device.EntrySupply
import Pouch.Device.PouchShapes
import Pouch.Saead.SealChain

set_option autoImplicit false

/-!
# Sealed pouches on their way to the transport

The worker takes the blocks in order and seals them with the session that the pouch was started in. No other party
uses that session before the pouch is finished, except for its end.
-/

namespace Pouch

open ByteMemory

section Taking

def Event.taken? : Event → Option Buf
  | .processed block _ _ _ _ | .dropped block _ => some block
  | _ => none

def takenBlocks (log : List Event) : List Buf := log.filterMap Event.taken?

def Outgoing.plain? : Outgoing → Option Buf
  | .header _ => none
  | .block plain _ => some plain

def plainBlocks (packets : List Outgoing) : List Buf := packets.filterMap Outgoing.plain?

@[simp] theorem plainBlocks_nil : plainBlocks [] = [] := rfl

@[simp] theorem plainBlocks_append (first second : List Outgoing) :
    plainBlocks (first ++ second) = plainBlocks first ++ plainBlocks second :=
  List.filterMap_append

@[simp] theorem plainBlocks_block (plain buf : Buf) : plainBlocks [.block plain buf] = [plain] := rfl

@[simp] theorem plainBlocks_headers (headers : List Buf) : plainBlocks (headers.map .header) = [] := by
  simp [plainBlocks, Outgoing.plain?]

variable {Key : Type} {cfg : Config} {device next : Device Key} {log : List Event} {event : Event}

def TakesInOrder (device : Device Key) (log : List Event) : Prop :=
  log.flatMap Event.enqueues = takenBlocks log ++ device.uplink.queue

theorem TakesInOrder.small (inOrder : TakesInOrder device log) (small : SmallStep device event next) :
    TakesInOrder next (log ++ [event]) := by
  unfold TakesInOrder at inOrder ⊢
  simp only [takenBlocks, List.flatMap_append, List.flatMap_singleton, List.filterMap_append] at inOrder ⊢
  rw [inOrder]
  cases small with
  | processed block sent rest crypto pool active opened queue => simp [Event.enqueues, Event.taken?, queue]
  | dropped block rest crypto pool active opened queue => simp [Event.enqueues, Event.taken?, queue]
  | downlink _ pool crypto downlink on =>
    rcases Event.of_downlink on with ⟨_, rfl⟩ | rfl | ⟨_, _, rfl⟩ | ⟨_, rfl⟩ <;> simp [Event.enqueues, Event.taken?]
  | _ => simp [Event.enqueues, Event.taken?, uplinkEnqueue, Device.putStream, startFail, endSession]

def Event.drops : Event → Bool
  | .dropped _ _ => true
  | _ => false

theorem plainBlocks_sublist (log : List Event) :
    List.Sublist (plainBlocks (log.flatMap Event.transports)) (takenBlocks log) := by
  induction log with
  | nil => exact .slnil
  | cons event rest ih =>
    rw [List.flatMap_cons, plainBlocks_append, takenBlocks, ← List.singleton_append, List.filterMap_append]
    refine List.Sublist.append ?_ ih
    cases event with
    | processed => simp [Event.transports, Event.taken?]
    | _ => exact List.nil_sublist _

theorem plainBlocks_taken (log : List Event) (kept : ∀ event ∈ log, event.drops = false) :
    plainBlocks (log.flatMap Event.transports) = takenBlocks log := by
  induction log with
  | nil => rfl
  | cons event rest ih =>
    simp only [List.mem_cons, forall_eq_or_imp] at kept
    rw [List.flatMap_cons, plainBlocks_append, ih kept.2, takenBlocks, takenBlocks, ← List.singleton_append,
      List.filterMap_append]
    cases event with
    | processed => simp [Event.transports, Event.taken?]
    | dropped => cases kept.1
    | _ => rfl

end Taking

section Session

variable {Key : Type} {cfg : Config} {device : Device Key}

def Crypto.sending : Crypto Key → Option (Session Key)
  | .none => Option.none
  | .saead state => some state.uplink

theorem downlinkStart_sending (info : EncryptionInfo) (keys : KeySource Key) (crypto : Crypto Key) :
    (crypto.downlinkStart cfg info keys).2.sending = crypto.sending := by
  cases crypto with
  | none => cases info <;> rfl
  | saead state => exact congrArg some (cryptoDownlinkStart_uplink cfg state info keys)

theorem decryptBlock_sending (call : BlockCall Key) (pool : Ledger) (block : Buf) (crypto : Crypto Key) :
    (crypto.decryptBlock cfg call pool block).2.1.sending = crypto.sending := by
  cases crypto with
  | none => rfl
  | saead state => exact congrArg some (downlinkBlockDecrypt_uplink cfg state block.data call.malloc call.psa)

variable (cfg) in
theorem pushTurn_crypto {Info State : Type} (handling : HeaderHandling Info State) (malloc : Option Memory)
    (state : Downlink State) (data : List UInt8) :
    (pushTurn cfg handling malloc state data).state.crypto = state.crypto ∨
      ∃ info, (pushTurn cfg handling malloc state data).state.crypto =
        (handling.cryptoDownlinkStart state.crypto info).2 := by
  have parsed : ∀ view, (pouchDownlinkParseHeader cfg handling state.crypto view).2 = state.crypto ∨
      ∃ info, (pouchDownlinkParseHeader cfg handling state.crypto view).2 =
        (handling.cryptoDownlinkStart state.crypto info).2 := by
    intro view
    simp only [pouchDownlinkParseHeader]
    split
    · exact .inl rfl
    · rename_i info headerLen _
      right
      refine ⟨info, ?_⟩
      generalize handling.cryptoDownlinkStart state.crypto info = result
      obtain ⟨status, crypto⟩ := result
      cases status <;> rfl
  unfold pushTurn
  cases state.pouchBuf with
  | none => exact .inl rfl
  | some buf =>
    simp only
    split_ifs
    · exact .inl rfl
    · exact .inl rfl
    · have called := parsed (pouchBufviewInit
        (bufWrite buf (data.take (min data.length (cfg.maxCiphertextBlockSize - bufSizeGet buf)))))
      generalize pouchDownlinkParseHeader cfg handling state.crypto _ = result at called ⊢
      obtain ⟨outcome, crypto⟩ := result
      cases outcome <;> exact called

theorem loop_sending (call : PushCall Key) (fuel index : Nat) (push : PushState Key) (data : List UInt8) :
    (PushState.loop cfg call fuel index push data).crypto.sending = push.crypto.sending := by
  induction fuel generalizing index push data with
  | zero => rfl
  | succ fuel ih =>
    have turn : (push.turn (pushTurn cfg (call.handling cfg) (call.malloc index) push.framing data)).crypto.sending =
        push.crypto.sending := by
      rw [turn_crypto]
      rcases pushTurn_crypto cfg (call.handling cfg) (call.malloc index) push.framing data with same | ⟨info, started⟩
      · rw [same]
        rfl
      · rw [started]
        exact downlinkStart_sending info call.keys push.crypto
    simp only [PushState.loop]
    split_ifs
    · rfl
    · exact turn
    · exact (ih _ _ _).trans turn

theorem step_sending (formed : device.Formed cfg) (op : DeviceOp Key) (worker : op.party ≠ .worker)
    (other : op.party.emits = false) : (device.step cfg op).1.crypto.sending = device.crypto.sending := by
  have traced (downlink : op.party ≠ .downlink) :
      (device.step cfg op).1.crypto.sending = device.crypto.sending := by
    have call := Device.step_call cfg device op formed
    have kept := call.trace.invariant (fun reached _ => reached.crypto = device.crypto)
      (fun event => event.party ≠ .worker ∧ event.party ≠ .start ∧ event.party ≠ .downlink ∧ event ≠ .sessionEnded)
      (fun _ _ _ _ small allowed holds =>
        (small.crypto_kept allowed.1 allowed.2.1 allowed.2.2.1 allowed.2.2.2).trans holds) ?_ [] rfl
    · rw [kept]
    · intro event member
      rcases Event.party_of_reportedBy (call.parties event member) with same | ⟨_, isFinish⟩ | ⟨⟨block, rfl⟩, _⟩
      · refine ⟨by rwa [same], ?_, by rwa [same], ?_⟩
        · rintro isStart
          rw [← same, isStart] at other
          cases other
        · rintro rfl
          rw [← same] at other
          cases other
      · rw [isFinish] at other
        cases other
      · simp [Event.party]
  cases op with
  | processBlocks => exact absurd rfl worker
  | downlinkStart malloc => rfl
  | downlinkPush call data => exact loop_sending call data.length 0 _ data
  | decryptBlocks call =>
    simp only [Device.step, Device.decryptBlocks]
    split_ifs
    · cases device.downlink.decryptQueue with
      | nil => rfl
      | cons block rest => exact decryptBlock_sending call device.pool block device.crypto
    · rfl
  | consumeBlocks =>
    simp only [Device.step, Device.consumeBlocks]
    split_ifs
    · cases device.downlink.consumeQueue <;> rfl
    · rfl
  | startActivate | startSession | startPouch | startHeader | fill | finish => cases other
  | _ => exact traced (by simp [DeviceOp.party])

end Session

section Sealing

variable {Key : Type} {cfg : Config} {aead : Aead Key} {derive : SessionId → Algorithm → Nat → Option Key}
  {device next : Device Key} {log events : List Event}

structure Session.Keyed (cfg : Config) (derive : SessionId → Algorithm → Nat → Option Key) (session : Session Key)
    (pouchId : UInt16) : Prop where
  pouch : session.pouch.id = pouchId
  key : session.key = derive session.id session.algorithm cfg.maxBlockPayloadSizeLog ∨ session.key = none

structure SealedPackets (cfg : Config) (aead : Aead Key) (derive : SessionId → Algorithm → Nat → Option Key)
    (first : Session Key) (packets : List Outgoing) (last : Session Key) : Prop where
  fresh : first.pouch.blockIndex = 0
  keyed : first.Keyed cfg derive 1
  chain : ∃ payloads, SealChain aead .device first payloads
    ((outgoingBlocks packets).map fun block => block.data.contents) last ∧
      (plainBlocks packets).map (fun block => block.data.contents) = payloads.map sizedBlock

def Buf.Sized (block : Buf) : Prop :=
  ∃ payload, block.data.contents = sizedBlock payload ∧ payload.length < 65536

structure Sealing (cfg : Config) (aead : Aead Key) (derive : SessionId → Algorithm → Nat → Option Key)
    (device : Device Key) (log : List Event) : Prop where
  finished : ∀ packets ∈ (supplied log).finished, ∃ first last, SealedPackets cfg aead derive first packets last
  current : device.starting = none → device.uplink.sessionActive = true →
    ∃ first last, device.crypto.sending = some last ∧
      SealedPackets cfg aead derive first (supplied log).current last
  started : device.starting = some .pouch →
    ∃ session, device.crypto.sending = some session ∧ session.Keyed cfg derive 0
  ready : device.starting = some .header →
    ∃ session, device.crypto.sending = some session ∧ session.pouch.blockIndex = 0 ∧ session.Keyed cfg derive 1

/-- The AEAD is what the PSA functions compute when they do not fail, and the same goes for the keys. -/
def DeviceOp.Seals (aead : Aead Key) (derive : SessionId → Algorithm → Nat → Option Key) : DeviceOp Key → Prop
  | .processBlocks calls => ∀ index, aead.Implemented (calls index).psa
  | .startSession call => ∀ id algorithm log,
    call.keys.sessionKeyGenerate id algorithm log = derive id algorithm log ∨
      call.keys.sessionKeyGenerate id algorithm log = none
  | _ => True

theorem Sealing.keep (holds : Sealing cfg aead derive device log) (silent : Silent events)
    (starting : next.starting = device.starting)
    (active : next.uplink.sessionActive = device.uplink.sessionActive)
    (sending : next.crypto.sending = device.crypto.sending) : Sealing cfg aead derive next (log ++ events) := by
  constructor
  next =>
    rw [silent.supplied log]
    exact holds.finished
  next =>
    rw [silent.supplied log, starting, active, sending]
    exact holds.current
  next =>
    rw [starting, sending]
    exact holds.started
  next =>
    rw [starting, sending]
    exact holds.ready

theorem Sealing.packets (holds : Sealing cfg aead derive device log) (shaped : Shaped device log) :
    ∃ first last, SealedPackets cfg aead derive first (supplied log).current last := by
  by_cases going : device.starting = none ∧ device.uplink.sessionActive = true
  next =>
    obtain ⟨first, last, _, packets⟩ := holds.current going.1 going.2
    exact ⟨first, last, packets⟩
  next =>
    have quiet : (supplied log).current = [] := by
      apply shaped.quiet
      cases starting : device.starting with
      | none => exact .inr (by simpa [starting] using going)
      | some stage => exact .inl rfl
    rw [quiet]
    let session : Session Key := { unstartedSession with pouch := ⟨1, 0, Bytes.zero 16⟩ }
    exact ⟨session, session, rfl, ⟨rfl, .inr rfl⟩, [], .nil session, rfl⟩

theorem CallTrace.silent {party : Party} {result : Device Key × List Event} (call : CallTrace cfg party device result)
    (worker : party ≠ .worker) (finish : party ≠ .finish) : Silent result.2 := by
  intro event member
  rcases Event.party_of_reportedBy (call.parties event member) with same | ⟨_, isFinish⟩ | ⟨⟨block, rfl⟩, _⟩
  · cases event with
    | processed => exact absurd same.symm worker
    | finished => exact absurd same.symm finish
    | _ => exact ⟨rfl, rfl⟩
  · exact absurd isFinish finish
  · exact ⟨rfl, rfl⟩

variable (cfg) in
theorem encryptBlock_seals {first last : Session Key} {payloads frames : List (List UInt8)}
    (chain : SealChain aead .device first payloads frames last) (crypto : Crypto Key)
    (sending : crypto.sending = some last) (call : BlockCall Key) (implemented : aead.Implemented call.psa)
    (pool : Ledger) (block : Buf) (payload : List UInt8) (small : payload.length < 65536)
    (contents : block.data.contents = sizedBlock payload) :
    let result := crypto.encryptBlock cfg call pool block
    result.1 = none ∧ result.2.1.sending = some last ∨
      ∃ sent session, result.1 = some sent ∧ result.2.1.sending = some session ∧
        SealChain aead .device first (payloads ++ [payload]) (frames ++ [sent.data.contents]) session := by
  cases crypto with
  | none => cases sending
  | saead state =>
    obtain rfl : state.uplink = last := by simpa [Crypto.sending] using sending
    simp only [Crypto.encryptBlock]
    split_ifs with active
    · have outcome := sealBlock_chain cfg chain implemented call.malloc block.data payload small contents
      simp only [sessionEncryptBlock]
      cases allocated : call.malloc with
      | none =>
        rw [allocated] at outcome
        rcases outcome with ⟨_, same⟩ | ⟨buf, frame, isSealed, _⟩
        · left
          exact ⟨rfl, congrArg some same⟩
        · cases isSealed
      | some memory =>
        rw [allocated] at outcome
        rcases outcome with ⟨refused, same⟩ | ⟨buf, frame, isSealed, rfl, next⟩
        · left
          rw [refused]
          exact ⟨rfl, congrArg some same⟩
        · right
          rw [isSealed]
          exact ⟨_, _, rfl, rfl, next⟩
    · exact .inl ⟨rfl, rfl⟩

theorem SealedPackets.more {first last session : Session Key} {packets : List Outgoing}
    (packetsSealed : SealedPackets cfg aead derive first packets last) {payloads : List (List UInt8)}
    (plain : (plainBlocks packets).map (fun block => block.data.contents) = payloads.map sizedBlock)
    (header : Option Buf) (block sent : Buf) (payload : List UInt8) (contents : block.data.contents = sizedBlock payload)
    (chain : SealChain aead .device first (payloads ++ [payload])
      ((outgoingBlocks packets).map (fun block => block.data.contents) ++ [sent.data.contents]) session) :
    SealedPackets cfg aead derive first (packets ++ (header.toList.map .header ++ [.block block sent])) session := by
  refine ⟨packetsSealed.fresh, packetsSealed.keyed, payloads ++ [payload], ?_, ?_⟩
  · simpa using chain
  · simp [plain, contents]

variable (cfg) in
theorem processQueue_seals {first last : Session Key} (blocks : List Buf) (calls : Nat → BlockCall Key)
    (sending : device.crypto.sending = some last)
    (packetsSealed : SealedPackets cfg aead derive first (supplied log).current last) (framed : ∀ block ∈ blocks, block.Sized)
    (implemented : ∀ index, aead.Implemented (calls index).psa) :
    let result := processQueue cfg blocks calls device
    ∃ session, result.1.crypto.sending = some session ∧
      SealedPackets cfg aead derive first (supplied (log ++ result.2)).current session := by
  induction blocks generalizing calls device log last with
  | nil => exact ⟨last, sending, by simpa [processQueue] using packetsSealed⟩
  | cons block rest ih =>
    simp only [List.mem_cons, forall_eq_or_imp] at framed
    obtain ⟨⟨payload, contents, small⟩, others⟩ := framed
    obtain ⟨payloads, chain, plain⟩ := packetsSealed.chain
    have encrypted := encryptBlock_seals cfg chain device.crypto sending (calls 0) (implemented 0) device.pool block
      payload small contents
    simp only [processQueue]
    generalize device.crypto.encryptBlock cfg (calls 0) device.pool block = result at encrypted ⊢
    obtain ⟨outcome, crypto, pool⟩ := result
    rcases encrypted with ⟨refused, same⟩ | ⟨sent, session, isSealed, next, extended⟩
    · obtain rfl : outcome = none := refused
      have silent : Silent [.dropped block device.starting.isSome] := by
        simp [Silent, Event.transports, Event.finishes]
      simp only
      rw [List.append_cons log]
      apply ih (fun index => calls (index + 1)) same _ others fun index => implemented (index + 1)
      rwa [silent.supplied log]
    · obtain rfl : outcome = some sent := isSealed
      have added : supplied (log ++ [.processed block device.uplink.header sent device.starting.isSome
          device.uplink.id]) = { supplied log with
            current := (supplied log).current ++
              (device.uplink.header.toList.map .header ++ [.block block sent]) } := by
        simp [Supply.add, Event.finishes, Event.transports]
      simp only
      rw [List.append_cons log]
      apply ih (fun index => calls (index + 1)) next _ others fun index => implemented (index + 1)
      rw [added]
      exact packetsSealed.more plain device.uplink.header block sent payload contents extended

theorem processBlocks_seals {first last : Session Key} (calls : Nat → BlockCall Key)
    (sending : device.crypto.sending = some last)
    (packetsSealed : SealedPackets cfg aead derive first (supplied log).current last)
    (framed : ∀ block ∈ device.uplink.queue, block.Sized) (implemented : ∀ index, aead.Implemented (calls index).psa) :
    let result := processBlocks cfg calls device
    ∃ session, result.1.crypto.sending = some session ∧
      SealedPackets cfg aead derive first (supplied (log ++ result.2)).current session := by
  have begins : Silent [.workStarted] := by simp [Silent, Event.transports, Event.finishes]
  have closes (drained : Device Key) (session : Session Key) (report : List Event)
      (sent : drained.crypto.sending = some session)
      (stands : SealedPackets cfg aead derive first (supplied (log ++ .workStarted :: report)).current session) :
      ∃ session, (markClosed drained).1.crypto.sending = some session ∧
        SealedPackets cfg aead derive first (supplied (log ++ (.workStarted :: report ++ (markClosed drained).2))).current
          session := by
    refine ⟨session, ?_, ?_⟩
    · simp only [markClosed]
      split_ifs <;> exact sent
    · have silent : Silent (markClosed drained).2 := by
        simp only [markClosed]
        split_ifs <;> simp [Silent, Event.transports, Event.finishes]
      rwa [← List.append_assoc, silent.supplied]
  simp only [processBlocks]
  split_ifs with pending
  · simp only [drainQueue]
    split_ifs with going
    · let started : Device Key := { device with uplink := { device.uplink with work := false } }
      have sent : started.crypto.sending = some last := sending
      have stands : SealedPackets cfg aead derive first (supplied (log ++ [.workStarted])).current last := by
        rwa [begins.supplied log]
      obtain ⟨session, sentBehind, standsBehind⟩ :=
        processQueue_seals cfg device.uplink.queue calls sent stands framed implemented
      rw [← List.append_cons] at standsBehind
      exact closes _ session _ sentBehind standsBehind
    · exact closes _ last [] sending (by rwa [begins.supplied log])
  · exact ⟨last, sending, by simpa using packetsSealed⟩

theorem processBlocks_sending (calls : Nat → BlockCall Key)
    (takes : ∀ event ∈ (processBlocks cfg calls device).2, event.taken? = none) :
    (processBlocks cfg calls device).1.crypto.sending = device.crypto.sending := by
  have marked (drained : Device Key) : (markClosed drained).1.crypto = drained.crypto := by
    simp only [markClosed]
    split_ifs <;> rfl
  unfold processBlocks at takes ⊢
  split_ifs at takes ⊢ with pending
  · simp only [drainQueue] at takes ⊢
    rw [marked]
    split_ifs at takes ⊢ with going
    · cases queue : device.uplink.queue with
      | nil => rfl
      | cons block rest =>
        exfalso
        simp only [queue, processQueue] at takes
        generalize device.crypto.encryptBlock cfg (calls 0) device.pool block = result at takes
        obtain ⟨outcome, crypto, pool⟩ := result
        cases outcome <;> simp [Event.taken?] at takes
    · rfl
  · rfl

theorem Sealing.worker (holds : Sealing cfg aead derive device log) (formed : device.Formed cfg)
    (calls : Nat → BlockCall Key) (framed : ∀ block ∈ device.uplink.queue, block.Sized)
    (implemented : ∀ index, aead.Implemented (calls index).psa)
    (undisturbed : ∀ event ∈ (processBlocks cfg calls device).2, event.takenDuring ≠ some true) :
    Sealing cfg aead derive (processBlocks cfg calls device).1 (log ++ (processBlocks cfg calls device).2) := by
  have call : CallTrace cfg .worker device (processBlocks cfg calls device) :=
    Device.step_call cfg device (.processBlocks calls) formed
  have kept := call.session_kept rfl
  have untouched (inside : device.starting.isSome = true) :
      (processBlocks cfg calls device).1.crypto.sending = device.crypto.sending := by
    refine processBlocks_sending calls ?_
    intro event member
    cases taken : event.taken? with
    | none => rfl
    | some block =>
      have during : event.takenDuring = some true := by
        cases found : event.takenDuring with
        | none => cases event <;> simp [Event.taken?, Event.takenDuring] at taken found
        | some busy =>
          obtain ⟨isBusy, _⟩ := processBlocks_during cfg calls device event member busy found
          rw [isBusy, inside]
      exact absurd during (undisturbed event member)
  constructor
  next =>
    rw [supplied_append, foldl_add _ _ (call.unfinished (by simp) (by simp))]
    exact holds.finished
  next =>
    rw [kept.starting, kept.active]
    intro idle active
    obtain ⟨first, last, sending, packets⟩ := holds.current idle active
    exact ⟨first, processBlocks_seals calls sending packets framed implemented⟩
  next =>
    rw [kept.starting]
    intro inside
    rw [untouched (by simp [inside])]
    exact holds.started inside
  next =>
    rw [kept.starting]
    intro inside
    rw [untouched (by simp [inside])]
    exact holds.ready inside

theorem Sealing.outside (holds : Sealing cfg aead derive device log) (silent : Silent events)
    (outside : next.starting = none → next.uplink.sessionActive = false)
    (started : next.starting = some .pouch →
      ∃ session, next.crypto.sending = some session ∧ session.Keyed cfg derive 0)
    (ready : next.starting = some .header →
      ∃ session, next.crypto.sending = some session ∧ session.pouch.blockIndex = 0 ∧ session.Keyed cfg derive 1) :
    Sealing cfg aead derive next (log ++ events) := by
  constructor
  next =>
    rw [silent.supplied log]
    exact holds.finished
  next =>
    intro idle active
    rw [outside idle] at active
    cases active
  next => exact started
  next => exact ready

theorem sessionStart_started {crypto next : Crypto Key} (build : crypto.isPlaintext = false) (call : SessionCall Key)
    (derives : (DeviceOp.startSession call).Seals aead derive)
    (started : crypto.sessionStart cfg call = (none, next)) :
    ∃ session, next.sending = some session ∧ session.Keyed cfg derive 0 := by
  cases crypto with
  | none => cases build
  | saead state =>
    simp only [Crypto.sessionStart, uplinkSessionStart] at started
    cases drawn : call.random with
    | none => simp [drawn] at started
    | some value =>
      simp only [drawn] at started
      obtain rfl : _ = next := (Prod.mk.inj started).2
      exact ⟨_, rfl, rfl, derives _ _ _⟩

theorem pouchStart_ready {crypto next : Crypto Key} {session : Session Key} (sending : crypto.sending = some session)
    (keyed : session.Keyed cfg derive 0) (started : crypto.pouchStart = (none, next)) :
    ∃ session, next.sending = some session ∧ session.pouch.blockIndex = 0 ∧ session.Keyed cfg derive 1 := by
  cases crypto with
  | none => cases sending
  | saead state =>
    obtain rfl : state.uplink = session := by simpa [Crypto.sending] using sending
    simp only [Crypto.pouchStart, uplinkPouchStart, sessionPouchStart, keyed.pouch] at started
    split_ifs at started with active
    · obtain rfl : _ = next := (Prod.mk.inj started).2
      exact ⟨_, rfl, rfl, rfl, keyed.key⟩
    · cases (Prod.mk.inj started).1

theorem Sealing.start (holds : Sealing cfg aead derive device log) (shaped : Shaped device log)
    (formed : device.Formed cfg) (build : device.crypto.isPlaintext = false) (op : DeviceOp Key)
    (isStart : op.party = .start) (derives : op.Seals aead derive) :
    Sealing cfg aead derive (device.step cfg op).1 (log ++ (device.step cfg op).2) := by
  have silent : Silent (device.step cfg op).2 :=
    (Device.step_call cfg device op formed).silent (by simp [isStart]) (by simp [isStart])
  cases op with
  | startActivate =>
    simp only [Device.step, startActivate] at silent ⊢
    split_ifs at silent ⊢
    · exact holds.keep silent rfl rfl rfl
    · exact holds.outside silent (by simp) (by simp) (by simp)
  | startSession call =>
    simp only [Device.step, startSession] at silent ⊢
    split_ifs at silent ⊢
    · have started (next : Crypto Key) (succeeds : device.crypto.sessionStart cfg call = (none, next)) :=
        sessionStart_started build call derives succeeds
      generalize device.crypto.sessionStart cfg call = result at silent started ⊢
      obtain ⟨_ | _, crypto⟩ := result
      · exact holds.outside silent (by simp) (fun _ => started crypto rfl) (by simp)
      · exact holds.outside silent (by simp [startFail]) (by simp [startFail]) (by simp [startFail])
    · exact holds.keep silent rfl rfl rfl
  | startPouch =>
    simp only [Device.step, startPouch] at silent ⊢
    split_ifs at silent ⊢ with inside
    · obtain ⟨session, sending, keyed⟩ := holds.started inside
      have ready (next : Crypto Key) (started : device.crypto.pouchStart = (none, next)) :=
        pouchStart_ready sending keyed started
      generalize device.crypto.pouchStart = result at silent ready ⊢
      obtain ⟨_ | _, crypto⟩ := result
      · exact holds.outside silent (by simp) (by simp) fun _ => ready crypto rfl
      · exact holds.outside silent (by simp [startFail]) (by simp [startFail]) (by simp [startFail])
    · exact holds.keep silent rfl rfl rfl
  | startHeader call =>
    simp only [Device.step, startHeader] at silent ⊢
    split_ifs at silent ⊢ with inside
    · have empty := shaped.quiet (.inl (by rw [inside]; rfl))
      obtain ⟨session, sending, first, keyed⟩ := holds.ready inside
      generalize pouchHeaderCreate call device.crypto device.pool = result at silent ⊢
      obtain ⟨_ | header, pool⟩ := result
      · exact holds.outside silent (by simp [startFail]) (by simp [startFail]) (by simp [startFail])
      · constructor
        next =>
          rw [silent.supplied log]
          exact holds.finished
        next =>
          rw [silent.supplied log, empty]
          exact fun _ _ => ⟨session, session, sending, first, keyed, [], .nil _, rfl⟩
        next => simp
        next => simp
    · exact holds.keep silent rfl rfl rfl
  | _ => cases isStart

theorem Sealing.step (holds : Sealing cfg aead derive device log) (shaped : Shaped device log) (formed : device.Formed cfg)
    (build : device.crypto.isPlaintext = false) (op : DeviceOp Key)
    (outside : op.party ≠ .read ∧ op.party ≠ .finish) (framed : ∀ block ∈ device.uplink.queue, block.Sized)
    (implemented : op.Seals aead derive) (undisturbed : ∀ event ∈ (device.step cfg op).2, event.takenDuring ≠ some true) :
    Sealing cfg aead derive (device.step cfg op).1 (log ++ (device.step cfg op).2) := by
  have call := Device.step_call cfg device op formed
  by_cases worker : op.party = .worker
  next =>
    cases op with
    | processBlocks calls => exact holds.worker formed calls framed implemented undisturbed
    | _ => cases worker
  next =>
    cases isOther : op.party.emits with
    | true =>
      have isStart : op.party = .start := by
        cases party : op.party with
        | start => rfl
        | read => exact absurd party outside.1
        | finish => exact absurd party outside.2
        | _ => simp [party, Party.emits] at isOther
      exact holds.start shaped formed build op isStart implemented
    | false =>
      have kept := call.session_kept isOther
      exact holds.keep (call.silent worker outside.2) kept.starting kept.active
        (step_sending formed op worker isOther)

end Sealing

end Pouch
