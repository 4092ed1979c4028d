import Pouch.BleGatt.EntryDelivery
import Pouch.Device.SealedSupply

set_option autoImplicit false

/-!
# Sealed entries on their way to the peer

An application that only writes entries, in the build with encryption. What the transfers carry can be opened with
the key of the session, pouch by pouch and from the first block on.
-/

namespace Pouch

section Turn

variable {Key : Type} {cfg : Config} {aead : Aead Key} {derive : SessionId → Algorithm → Nat → Option Key}
  {device next : Device Key} {log events : List Event}

theorem Sealing.finish (holds : Sealing cfg aead derive device log) (shaped : Shaped device log)
    (silent : Silent events) (idle : next.starting = none) :
    Sealing cfg aead derive (pouchUplinkFinish next).1 (log ++ (events ++ (pouchUplinkFinish next).2)) := by
  have ended : supplied (log ++ (events ++ (pouchUplinkFinish next).2)) =
      ⟨(supplied log).finished ++ [(supplied log).current], []⟩ := by
    rw [← List.append_assoc, supplied_append, silent.supplied log, finish_supply]
  have starting := (finish_unread next).2.trans idle
  constructor
  next =>
    rw [ended]
    simp only [List.mem_append, List.mem_singleton]
    rintro packets (earlier | rfl)
    · exact holds.finished packets earlier
    · exact holds.packets shaped
  next =>
    intro _ active
    rw [finish_inactive] at active
    cases active
  next => simp [starting]
  next => simp [starting]

theorem Sealing.turn (holds : Sealing cfg aead derive device log) (shaped : Shaped device log)
    (turn : PacketTurn cfg device next events) (formed : device.Formed cfg) (idle : device.starting = none) :
    Sealing cfg aead derive next (log ++ events) := by
  cases turn with
  | nothing => simpa using holds
  | part maxlen active goesOn =>
    obtain ⟨stillActive, crypto⟩ := fill_goesOn maxlen active goesOn
    have starting := (pouchUplinkFill_reads maxlen device formed idle).starting
    exact holds.keep (fill_silent maxlen formed idle) starting (stillActive.trans active.symm) (by rw [crypto])
  | whole maxlen =>
    have starting := (pouchUplinkFill_reads maxlen device formed idle).starting
    exact holds.finish shaped (fill_silent maxlen formed idle) (starting.trans idle)

end Turn

section Delivery

variable {Key : Type} {cfg : Config} {aead : Aead Key} {derive : SessionId → Algorithm → Nat → Option Key}
  {device : Device Key} {log : List Event}

theorem forall₂_of_mem {α β : Type} {R : α → β → Prop} {items : List α} {images : List β}
    (related : List.Forall₂ R items images) {item : α} (member : item ∈ items) : ∃ image, R item image := by
  induction related with
  | nil => cases member
  | cons first _ ih =>
    rcases List.mem_cons.mp member with rfl | later
    · exact ⟨_, first⟩
    · exact ih later

theorem forall₂_sublist {α β : Type} {R : α → β → Prop} {fewer items : List α} (fewerItems : fewer.Sublist items)
    {images : List β} (related : List.Forall₂ R items images) :
    ∃ fewerImages, List.Forall₂ R fewer fewerImages ∧ fewerImages.Sublist images := by
  induction fewerItems generalizing images with
  | slnil => exact ⟨[], .nil, List.nil_sublist images⟩
  | cons item _ ih =>
    cases related with
    | cons _ others =>
      obtain ⟨fewerImages, kept, fewerOthers⟩ := ih others
      exact ⟨fewerImages, kept, fewerOthers.cons _⟩
  | cons_cons item _ ih =>
    cases related with
    | cons here others =>
      obtain ⟨fewerImages, kept, fewerOthers⟩ := ih others
      exact ⟨_, .cons here kept, fewerOthers.cons_cons _⟩

theorem SealedEntries.sized {block : PouchBuf} {entries : List WireEntry} (payload : cfg.maxBlockPayloadSize ≤ 32768)
    (isSealed : SealedEntries cfg block entries) :
    block.contents = sizedBlock (entryBlock entries).payload ∧ (entryBlock entries).payload.length + 16 < 65536 := by
  have bytes := (isSealed.encodes payload).bytes
  have within := isSealed.within
  simp only [Config.maxPlaintextBlockSize, Config.blockHeaderSize] at within
  exact ⟨isSealed.contents, by omega⟩

structure SealedDelivering (cfg : Config) (aead : Aead Key) (derive : SessionId → Algorithm → Nat → Option Key)
    (device : Device Key) (log : List Event) : Prop where
  entries : ∃ done entries, EntriesHeld cfg device log done entries
  inOrder : TakesInOrder device log
  build : device.crypto.isPlaintext = false
  shaped : Shaped device log
  sealing : Sealing cfg aead derive device log

theorem SealedDelivering.boot (encrypted : cfg.encryption = .saead) :
    SealedDelivering cfg aead derive (.boot Key cfg) [] := by
  constructor
  next => exact ⟨[], [], .nil, rfl, rfl⟩
  next => rfl
  next => simp [Device.boot, Crypto.boot, encrypted, Crypto.isPlaintext]
  next => exact .boot cfg
  next =>
    refine ⟨by simp [supplied], ?_, by simp [Device.boot], by simp [Device.boot]⟩
    intro _ active
    cases active

theorem SealedDelivering.framed (delivering : SealedDelivering cfg aead derive device log)
    (payload : cfg.maxBlockPayloadSize ≤ 32768) : ∀ block ∈ device.uplink.queue, block.Sized := by
  intro block member
  obtain ⟨done, entries, held⟩ := delivering.entries
  have enqueued : block.data ∈ (log.flatMap Event.enqueues).map Buf.data := by
    rw [delivering.inOrder]
    exact List.mem_map_of_mem (List.mem_append_right _ member)
  obtain ⟨inside, isSealed⟩ := forall₂_of_mem held.passed enqueued
  obtain ⟨contents, small⟩ := isSealed.sized payload
  exact ⟨_, contents, by omega⟩

theorem sealed_preserved (payload : cfg.maxBlockPayloadSize ≤ 32768) :
    PortInvariant cfg (fun op => op.WritesEntries cfg ∧ op.Seals aead derive)
      fun device : Device Key => SealedDelivering cfg aead derive device := by
  constructor
  next =>
    intro device log op formed outside allowed undisturbed delivering
    obtain ⟨done, entries, held⟩ := delivering.entries
    have trace := (Device.step_traced cfg).trace device op formed
    constructor
    next => exact held.step formed payload op allowed.1
    next =>
      exact trace.invariant TakesInOrder (fun _ => True) (fun _ _ _ _ small _ holds => holds.small small)
        (fun _ _ => trivial) log delivering.inOrder
    next =>
      exact trace.invariant (fun reached _ => reached.crypto.isPlaintext = false) (fun _ => True)
        (fun _ _ _ _ small _ build => small.build.trans build) (fun _ _ => trivial) log delivering.build
    next => exact delivering.shaped.step formed op outside undisturbed
    next =>
      exact delivering.sealing.step delivering.shaped formed delivering.build op outside
        (delivering.framed payload) allowed.2 undisturbed
  next =>
    intro device next log events formed idle turn delivering
    obtain ⟨done, entries, held⟩ := delivering.entries
    have packet := turn.trace formed idle
    constructor
    next => exact ⟨done, entries, held.silent next events packet.block packet.passes packet.accepts⟩
    next =>
      exact packet.trace.invariant TakesInOrder (fun _ => True) (fun _ _ _ _ small _ holds => holds.small small)
        (fun _ _ => trivial) log delivering.inOrder
    next =>
      exact packet.trace.invariant (fun reached _ => reached.crypto.isPlaintext = false) (fun _ => True)
        (fun _ _ _ _ small _ build => small.build.trans build) (fun _ _ => trivial) log delivering.build
    next => exact delivering.shaped.turn turn formed idle
    next => exact delivering.sealing.turn delivering.shaped turn formed idle

end Delivery

section Opening

variable {Key : Type} {cfg : Config} {aead : Aead Key} {derive : SessionId → Algorithm → Nat → Option Key}
  {first last : Session Key} {log : List Event} {packets : List Outgoing} {done : List (List WireEntry)}

theorem SealChain.key_kept {role : PouchRole} {payloads frames : List (List UInt8)}
    (chain : SealChain aead role first payloads frames last) :
    last.key = first.key ∧ (payloads ≠ [] → first.key ≠ none) := by
  induction chain with
  | nil => exact ⟨rfl, fun filled => absurd rfl filled⟩
  | snoc chain key held payload ih =>
    refine ⟨ih.1, fun _ => ?_⟩
    rw [← ih.1, held]
    simp

theorem sizedBlock_injective : Function.Injective sizedBlock := by
  intro first second same
  exact (List.append_inj same (by rw [ByteMemory.putBe16_length, ByteMemory.putBe16_length])).2

structure SealedEntryPouch extends EntryPouch where
  frames : List (List UInt8)

def SealedEntryPouch.encode (pouch : SealedEntryPouch) : List UInt8 := pouch.header ++ pouch.frames.flatten

variable (cfg aead derive) in
/-- Whoever derives the key of the session and is at the first block of its first pouch opens the frames one after
the other, and gets the blocks out of them. -/
def SealedEntryPouch.Opens (pouch : SealedEntryPouch) : Prop :=
  ∃ id algorithm, ∀ receiver : Session Key,
    receiver.key = derive id algorithm cfg.maxBlockPayloadSizeLog → receiver.algorithm = algorithm →
      receiver.pouch.id = 1 → receiver.pouch.blockIndex = 0 →
        (openFrames cfg aead .device receiver pouch.frames).log =
          pouch.blocks.map fun entries => some (entryBlock entries).encode

theorem SealedPackets.payloads (packetsSealed : SealedPackets cfg aead derive first packets last)
    (areSealed : List.Forall₂ (SealedEntries cfg) ((plainBlocks packets).map Buf.data) done) :
    SealChain aead .device first (done.map fun entries => (entryBlock entries).payload)
      ((outgoingBlocks packets).map fun block => block.data.contents) last := by
  obtain ⟨payloads, chain, plain⟩ := packetsSealed.chain
  have same : payloads.map sizedBlock = (done.map fun entries => (entryBlock entries).payload).map sizedBlock := by
    rw [← plain, sealed_contents areSealed, List.map_map]
    rfl
  rwa [← List.map_injective_iff.mpr sizedBlock_injective same]

theorem SealedPackets.opens (packetsSealed : SealedPackets cfg aead derive first packets last)
    (payload : cfg.maxBlockPayloadSize ≤ 32768)
    (areSealed : List.Forall₂ (SealedEntries cfg) ((plainBlocks packets).map Buf.data) done) (header : List UInt8) :
    SealedEntryPouch.Opens cfg aead derive
      ⟨⟨header, done⟩, (outgoingBlocks packets).map fun block => block.data.contents⟩ := by
  have chain := packetsSealed.payloads areSealed
  refine ⟨first.id, first.algorithm, ?_⟩
  intro receiver key algorithm pouch index
  cases done with
  | nil =>
    generalize (outgoingBlocks packets).map (fun block => block.data.contents) = frames at chain ⊢
    generalize empty : List.map (fun entries => (entryBlock entries).payload) [] = payloads at chain
    cases chain with
    | nil => rfl
    | snoc => simp at empty
  | cons entries others =>
    have inStep : InStep first receiver := by
      constructor
      next =>
        rw [key]
        exact packetsSealed.keyed.key.resolve_right (chain.key_kept.2 (by simp))
      next => exact algorithm.symm
      next => rw [packetsSealed.keyed.pouch, pouch]
      next => rw [packetsSealed.fresh, index]
      next =>
        intro later
        rw [packetsSealed.fresh] at later
        exact absurd later (by decide)
    have lengths : ∀ payload ∈ (entries :: others).map (fun entries => (entryBlock entries).payload),
        1 ≤ payload.length ∧ payload.length + 16 < 65536 := by
      intro payload member
      obtain ⟨inside, isInside, rfl⟩ := List.mem_map.mp member
      obtain ⟨block, isSealed⟩ := forall₂_of_mem areSealed.flip isInside
      exact ⟨by simp [WireBlock.payload], (isSealed.sized ‹_›).2⟩
    rw [(chain.opened receiver inStep lengths).1, List.map_map]
    rfl

theorem IsPouch.sealed (isPouch : IsPouch log packets) (packetsSealed : SealedPackets cfg aead derive first packets last)
    (payload : cfg.maxBlockPayloadSize ≤ 32768)
    (areSealed : List.Forall₂ (SealedEntries cfg) ((plainBlocks packets).map Buf.data) done) :
    ∃ pouch : SealedEntryPouch, pouch.blocks = done ∧ pouch.encode = pouchBytes packets ∧ pouch.Headed log ∧
      pouch.Opens cfg aead derive := by
  have opens := packetsSealed.opens payload areSealed
  rcases isPouch with rfl | ⟨header, blocks, rfl, created, filled, areBlocks⟩
  · cases areSealed
    exact ⟨⟨⟨[], []⟩, []⟩, rfl, rfl, rfl, opens []⟩
  · refine ⟨_, rfl, ?_, ?_, opens header.data.contents⟩
    · rw [SealedEntryPouch.encode, ← List.flatMap_def, outgoingBlocks_cons, List.flatMap_append,
        ← blocks_bytes areBlocks]
      rfl
    · have notEmpty : done ≠ [] := by
        rintro rfl
        cases blocks with
        | nil => exact filled rfl
        | cons block rest =>
          cases block with
          | header buf => cases areBlocks _ List.mem_cons_self
          | block plain buf => cases areSealed
      rw [EntryPouch.Headed, if_neg notEmpty]
      exact ⟨header, created, rfl⟩

theorem pouches_sealed {segments : List (List Outgoing)} (payload : cfg.maxBlockPayloadSize ≤ 32768)
    (arePouches : ∀ packets ∈ segments, IsPouch log packets ∧
      ∃ first last, SealedPackets cfg aead derive first packets last)
    (areSealed : List.Forall₂ (SealedEntries cfg) ((plainBlocks segments.flatten).map Buf.data) done) :
    ∃ pouches : List SealedEntryPouch, done = pouches.flatMap (·.blocks) ∧
      pouches.map SealedEntryPouch.encode = segments.map pouchBytes ∧ (∀ pouch ∈ pouches, pouch.Headed log) ∧
      ∀ pouch ∈ pouches, pouch.Opens cfg aead derive := by
  induction segments generalizing done with
  | nil =>
    cases areSealed
    exact ⟨[], rfl, rfl, by simp, by simp⟩
  | cons packets segments ih =>
    simp only [List.mem_cons, forall_eq_or_imp] at arePouches
    obtain ⟨⟨isPouch, first, last, packetsSealed⟩, otherPouches⟩ := arePouches
    rw [List.flatten_cons, plainBlocks_append, List.map_append] at areSealed
    obtain ⟨here, others, rfl, inside, outside⟩ := forall₂_split _ areSealed
    obtain ⟨pouch, blocks, encoded, headed, opens⟩ := isPouch.sealed packetsSealed payload inside
    obtain ⟨pouches, rfl, allEncoded, allHeaded, allOpen⟩ := ih otherPouches outside
    refine ⟨pouch :: pouches, ?_, ?_, ?_, ?_⟩
    · rw [List.flatMap_cons, blocks]
    · rw [List.map_cons, List.map_cons, encoded, allEncoded]
    · simpa [headed] using allHeaded
    · simpa [opens] using allOpen

end Opening

section Entries

variable {Key : Type} {cfg : Config} {aead : Aead Key} {derive : SessionId → Algorithm → Nat → Option Key}
  {device : Device Key} {log : List Event}

structure SealedPlaces (cfg : Config) (aead : Aead Key) (derive : SessionId → Algorithm → Nat → Option Key)
    (device : Device Key) (log : List Event) where
  finished : List SealedEntryPouch
  current : SealedEntryPouch
  waiting : List (List WireEntry)
  opened : List WireEntry
  headed : ∀ pouch ∈ finished ++ [current], pouch.Headed log
  opens : ∀ pouch ∈ finished ++ [current], pouch.Opens cfg aead derive
  isFinished : finished.map SealedEntryPouch.encode = (supplied log).finished.map pouchBytes
  isCurrent : current.encode = pouchBytes (supplied log).current
  isWaiting : List.Forall₂ (SealedEntries cfg) (device.uplink.queue.map Buf.data) waiting
  isOpened : PendingEntries cfg opened (device.entryBlock.map Buf.data)

def SealedPlaces.entries (places : SealedPlaces cfg aead derive device log) : List WireEntry :=
  ((places.finished ++ [places.current]).flatMap (·.blocks) ++ places.waiting).flatten ++ places.opened

theorem SealedDelivering.places (delivering : SealedDelivering cfg aead derive device log)
    (payload : cfg.maxBlockPayloadSize ≤ 32768) :
    ∃ places : SealedPlaces cfg aead derive device log,
      (places.entries.map WireEntry.encode).Sublist (writtenEntries log) ∧
      ((∀ event ∈ log, event.drops = false) → places.entries.map WireEntry.encode = writtenEntries log) := by
  obtain ⟨done, opened, kept⟩ := delivering.entries
  have passed := kept.passed
  rw [delivering.inOrder, List.map_append] at passed
  obtain ⟨taken, waiting, rfl, areTaken, areWaiting⟩ := forall₂_split _ passed
  obtain ⟨sent, areSent, fewer⟩ := forall₂_sublist ((plainBlocks_sublist log).map Buf.data) areTaken
  have allSent (kept : ∀ event ∈ log, event.drops = false) : sent = taken := by
    rw [plainBlocks_taken log kept] at areSent
    exact fewer.eq_of_length (areSent.length_eq.symm.trans areTaken.length_eq)
  rw [supplied_transports] at areSent
  have arePouches : ∀ packets ∈ (supplied log).finished ++ [(supplied log).current],
      IsPouch log packets ∧ ∃ first last, SealedPackets cfg aead derive first packets last := by
    simp only [List.mem_append, List.mem_singleton]
    rintro packets (finished | rfl)
    · exact ⟨delivering.shaped.finished packets finished, delivering.sealing.finished packets finished⟩
    · exact ⟨delivering.shaped.current, delivering.sealing.packets delivering.shaped⟩
  obtain ⟨pouches, rfl, encoded, headed, opens⟩ := pouches_sealed payload arePouches areSent
  rw [List.map_append, List.map_eq_append_iff] at encoded
  obtain ⟨finished, last, rfl, isFinished, isLast⟩ := encoded
  obtain ⟨current, rfl, isCurrent⟩ := List.map_eq_singleton_iff.mp isLast
  refine ⟨⟨finished, current, waiting, opened, headed, opens, isFinished, isCurrent, areWaiting, kept.pending⟩,
    ?_, ?_⟩
  · rw [← kept.accepted]
    exact (((fewer.append_right waiting).flatten).append_right opened).map WireEntry.encode
  · intro nothingDropped
    rw [← kept.accepted, SealedPlaces.entries, allSent nothingDropped]

/-- The transfers carry the pouches that were finished, and whoever derives the key of the session opens them one
block after the other. No entry comes twice or out of order, and none is missing unless a block was dropped. -/
theorem sealed_entries_reach_peer (encrypted : cfg.encryption = .saead) (payload : cfg.maxBlockPayloadSize ≤ 32768)
    (ops : List (PortOp Key)) (writes : ∀ op ∈ ops, ∀ call ∈ op.calls, call.WritesEntries cfg)
    (seals : ∀ op ∈ ops, ∀ call ∈ op.calls, call.Seals aead derive)
    (sized : SizesFit cfg (History.run (portStep cfg) ⟨.boot Key cfg, []⟩ ops).log)
    (undisturbed : TakesOutsideStart (libraryLog (History.run (portStep cfg) ⟨.boot Key cfg, []⟩ ops).log)) :
    let reached := History.run (portStep cfg) ⟨.boot Key cfg, []⟩ ops
    ∃ places : SealedPlaces cfg aead derive reached.state.device (libraryLog reached.log), ∃ transfers rest data,
      (places.entries.map WireEntry.encode).Sublist (writtenEntries (libraryLog reached.log)) ∧
      ((∀ event ∈ libraryLog reached.log, event.drops = false) →
        places.entries.map WireEntry.encode = writtenEntries (libraryLog reached.log)) ∧
      readPackets reached.log = transfers.flatten ++ rest ∧
      List.Forall₂ (CarriesData true) transfers (places.finished.map SealedEntryPouch.encode) ∧
      Begun rest data ∧ data ++ reached.state.device.uplink.unread = places.current.encode := by
  have delivered := (sealed_preserved payload).run_port .boot ops
    (fun op member call isCall => ⟨writes op member call isCall, seals op member call isCall⟩) sized undisturbed
    (.boot encrypted)
  obtain ⟨places, inOrder, complete⟩ := delivered.places payload
  obtain ⟨transfers, rest, data, carrying, _⟩ := (run_transferring ops sized).carrying
  refine ⟨places, transfers, rest, data, inOrder, complete, carrying.packets, ?_, carrying.begun, ?_⟩
  · rw [places.isFinished]
    exact carrying.complete
  · rw [places.isCurrent]
    exact carrying.current

end Entries

def sampleKey : SessionId → Algorithm → Nat → Option Unit := fun _ _ _ => some ()

def sealedRead (len : Nat) : PortOp Unit :=
  .read
    { len := len
      offset := 0
      malloc := true
      session := ⟨.gcm, some (Bytes.zero 16), ⟨sampleKey, fun _ => none⟩⟩
      header := ⟨some fun _ => 0, true, some [0x82, 0x01]⟩
      meanwhile := fun _ => [] }

def sealedWork : PortOp Unit :=
  .other ⟨.processBlocks fun _ => ⟨some fun _ => 0, fun call => some (nonceAead.encrypt call)⟩, rfl⟩

-- The pouch with the first entry is read to its end, and the second entry is written in between.
def sealedEntryOps : List (PortOp Unit) :=
  [sampleEntryWrite, sealedRead 4] ++ closeCalls ++ [sealedWork, sealedRead 8, sampleEntryWrite, sealedRead 32]

theorem sealedEntryOps_write : ∀ op ∈ sealedEntryOps, ∀ call ∈ op.calls, call.WritesEntries (defaultConfig .saead) := by
  have entry : sampleEntry.Valid (defaultConfig .saead) := by
    constructor
    · rintro path ⟨⟩
      decide
    · rintro data ⟨⟩
      decide
  simp [sealedEntryOps, closeCalls, PortOp.calls, sampleEntryWrite, sealedRead, sealedWork, PeerRead.start, DeviceOp.WritesEntries,
    entry]

theorem sealedEntryOps_seal : ∀ op ∈ sealedEntryOps, ∀ call ∈ op.calls, call.Seals nonceAead sampleKey := by
  have implemented : nonceAead.Implemented fun call => some (nonceAead.encrypt call) := by
    rintro call output isOutput
    exact (Option.some.inj isOutput).symm
  simp [sealedEntryOps, closeCalls, PortOp.calls, sampleEntryWrite, sealedRead, sealedWork, PeerRead.start, DeviceOp.Seals,
    implemented]

theorem sealedEntryOps_delivered :
    let reached := History.run (portStep (defaultConfig .saead)) ⟨.boot Unit (defaultConfig .saead), []⟩ sealedEntryOps
    (supplied (libraryLog reached.log)).finished.length = 1 ∧ (writtenEntries (libraryLog reached.log)).length = 2 ∧
      ∃ places : SealedPlaces (defaultConfig .saead) nonceAead sampleKey reached.state.device (libraryLog reached.log),
        ∃ transfers rest data,
          (places.entries.map WireEntry.encode).Sublist (writtenEntries (libraryLog reached.log)) ∧
          ((∀ event ∈ libraryLog reached.log, event.drops = false) →
            places.entries.map WireEntry.encode = writtenEntries (libraryLog reached.log)) ∧
          readPackets reached.log = transfers.flatten ++ rest ∧
          List.Forall₂ (CarriesData true) transfers (places.finished.map SealedEntryPouch.encode) ∧
          Begun rest data ∧ data ++ reached.state.device.uplink.unread = places.current.encode :=
  ⟨by decide +kernel, by decide +kernel,
    sealed_entries_reach_peer rfl ((Config.maxBlockPayloadSize_le _).trans (by decide)) sealedEntryOps sealedEntryOps_write
      sealedEntryOps_seal (by decide +kernel) (by decide +kernel)⟩

end Pouch
