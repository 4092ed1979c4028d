import Pouch.BleGatt.PortRuns

set_option autoImplicit false

/-!
# Entries on their way to the peer

An application that only writes entries, in the plaintext build. The pouches of the transfers are headers and blocks
of entries, and every entry is in one of them, or in the library still.
-/

namespace Pouch

section Delivery

variable {Key : Type} {cfg : Config} {device : Device Key} {log : List Event}

structure Delivering (cfg : Config) (device : Device Key) (log : List Event) : Prop where
  entries : ∃ done entries, EntriesHeld cfg device log done entries
  processing : Processing device log
  shaped : Shaped device log

theorem Shaped.boot (cfg : Config) : Shaped (Device.boot Key cfg) [] := by
  refine ⟨by simp [supplied], .inl rfl, fun _ => rfl, ?_, fun filled => absurd rfl filled⟩
  intro _ active
  cases active

theorem Delivering.boot (plaintext : cfg.encryption = .none) : Delivering cfg (.boot Key cfg) [] := by
  constructor
  next => exact ⟨[], [], .nil, rfl, rfl⟩
  next => exact ⟨by simp [Device.boot, Crypto.boot, plaintext, Crypto.isPlaintext], rfl⟩
  next => exact .boot cfg

theorem delivering_preserved (payload : cfg.maxBlockPayloadSize ≤ 32768) :
    PortInvariant cfg (DeviceOp.WritesEntries cfg) fun device : Device Key => Delivering cfg device := by
  constructor
  next =>
    intro device log op formed outside writes undisturbed delivering
    obtain ⟨done, entries, held⟩ := delivering.entries
    constructor
    next => exact held.step formed payload op writes
    next => exact delivering.processing.step formed op
    next => exact delivering.shaped.step formed op outside undisturbed
  next =>
    intro device next log events formed idle turn delivering
    obtain ⟨done, entries, held⟩ := delivering.entries
    have packet := turn.trace formed idle
    constructor
    next => exact ⟨done, entries, held.silent next events packet.block packet.passes packet.accepts⟩
    next =>
      exact packet.trace.invariant Processing (fun _ => True) (fun _ _ _ _ small _ holds => holds.small small)
        (fun _ _ => trivial) log delivering.processing
    next => exact delivering.shaped.turn turn formed idle

end Delivery

section Entries

variable {Key : Type} {cfg : Config} {device : Device Key} {log : List Event}

structure EntryPouch where
  header : List UInt8
  blocks : List (List WireEntry)

def EntryPouch.encode (pouch : EntryPouch) : List UInt8 :=
  pouch.header ++ pouch.blocks.flatMap fun entries => (entryBlock entries).encode

/-- The header is one that was created, unless the pouch has no blocks: then there is no header either. -/
def EntryPouch.Headed (log : List Event) (pouch : EntryPouch) : Prop :=
  if pouch.blocks = [] then
    pouch.header = []
  else
    ∃ header ∈ createdHeaders log, pouch.header = header.data.contents

theorem sealed_contents {blocks : List Buf} {done : List (List WireEntry)}
    (areSealed : List.Forall₂ (SealedEntries cfg) (blocks.map Buf.data) done) :
    blocks.map (fun block => block.data.contents) = done.map fun entries => (entryBlock entries).encode := by
  induction blocks generalizing done with
  | nil =>
    cases areSealed
    rfl
  | cons block rest ih =>
    cases areSealed with
    | cons first others => rw [List.map_cons, List.map_cons, ih others, first.contents]

theorem sealed_bytes {blocks : List Buf} {done : List (List WireEntry)}
    (areSealed : List.Forall₂ (SealedEntries cfg) (blocks.map Buf.data) done) :
    blocks.flatMap (fun block => block.data.contents) = done.flatMap fun entries => (entryBlock entries).encode := by
  rw [List.flatMap_def, List.flatMap_def, sealed_contents areSealed]

theorem blocks_bytes {packets : List Outgoing} (areBlocks : ∀ packet ∈ packets, packet.sent?.isSome = true) :
    pouchBytes packets = (outgoingBlocks packets).flatMap fun block => block.data.contents := by
  induction packets with
  | nil => rfl
  | cons packet rest ih =>
    simp only [List.mem_cons, forall_eq_or_imp] at areBlocks
    cases packet with
    | header buf => cases areBlocks.1
    | block plain buf =>
      rw [outgoingBlocks_cons, outgoingBlocks_block, List.flatMap_append, ← ih areBlocks.2]
      simp [pouchBytes, Outgoing.bytes, Outgoing.buf]

theorem IsPouch.encoded {packets : List Outgoing} {done : List (List WireEntry)} (isPouch : IsPouch log packets)
    (areSealed : List.Forall₂ (SealedEntries cfg) ((outgoingBlocks packets).map Buf.data) done) :
    ∃ pouch : EntryPouch, pouch.blocks = done ∧ pouch.encode = pouchBytes packets ∧ pouch.Headed log := by
  rcases isPouch with rfl | ⟨header, blocks, rfl, created, filled, areBlocks⟩
  · cases areSealed
    exact ⟨⟨[], []⟩, rfl, rfl, rfl⟩
  · rw [outgoingBlocks_cons] at areSealed
    refine ⟨⟨header.data.contents, done⟩, rfl, ?_, ?_⟩
    · rw [EntryPouch.encode, ← sealed_bytes areSealed, List.flatMap_append, ← blocks_bytes areBlocks]
      rfl
    · have notEmpty : done ≠ [] := by
        rintro rfl
        cases blocks with
        | nil => exact filled rfl
        | cons block rest =>
          cases block with
          | header buf => cases areBlocks _ List.mem_cons_self
          | block plain buf => cases areSealed
      rw [EntryPouch.Headed, if_neg notEmpty]
      exact ⟨header, created, rfl⟩

theorem forall₂_split {α β : Type} {R : α → β → Prop} (first : List α) {second : List α} {whole : List β}
    (related : List.Forall₂ R (first ++ second) whole) :
    ∃ left right, whole = left ++ right ∧ List.Forall₂ R first left ∧ List.Forall₂ R second right :=
  ⟨whole.take first.length, whole.drop first.length, (List.take_append_drop _ _).symm,
    (List.forall₂_take_append whole first second related.flip).flip,
    (List.forall₂_drop_append whole first second related.flip).flip⟩

theorem pouches_encoded {segments : List (List Outgoing)} {rest : List Buf} {done : List (List WireEntry)}
    (arePouches : ∀ packets ∈ segments, IsPouch log packets)
    (areSealed : List.Forall₂ (SealedEntries cfg) ((outgoingBlocks segments.flatten ++ rest).map Buf.data) done) :
    ∃ pouches : List EntryPouch, ∃ later, done = pouches.flatMap EntryPouch.blocks ++ later ∧
      pouches.map EntryPouch.encode = segments.map pouchBytes ∧ (∀ pouch ∈ pouches, pouch.Headed log) ∧
      List.Forall₂ (SealedEntries cfg) (rest.map Buf.data) later := by
  induction segments generalizing done with
  | nil => exact ⟨[], done, rfl, rfl, by simp, areSealed⟩
  | cons packets segments ih =>
    simp only [List.mem_cons, forall_eq_or_imp] at arePouches
    rw [List.flatten_cons, outgoingBlocks_append, List.append_assoc, List.map_append] at areSealed
    obtain ⟨here, others, rfl, first, second⟩ := forall₂_split _ areSealed
    obtain ⟨pouch, blocks, encoded, headed⟩ := arePouches.1.encoded first
    obtain ⟨pouches, later, rfl, allEncoded, allHeaded, waiting⟩ := ih arePouches.2 second
    refine ⟨pouch :: pouches, later, ?_, ?_, ?_, waiting⟩
    · rw [List.flatMap_cons, blocks, List.append_assoc]
    · rw [List.map_cons, List.map_cons, encoded, allEncoded]
    · simpa [headed] using allHeaded

structure EntryPlaces (cfg : Config) (device : Device Key) (log : List Event) where
  finished : List EntryPouch
  current : EntryPouch
  waiting : List (List WireEntry)
  opened : List WireEntry
  headed : ∀ pouch ∈ finished ++ [current], pouch.Headed log
  isFinished : finished.map EntryPouch.encode = (supplied log).finished.map pouchBytes
  isCurrent : current.encode = pouchBytes (supplied log).current
  isWaiting : List.Forall₂ (SealedEntries cfg) (device.uplink.queue.map Buf.data) waiting
  isOpened : PendingEntries cfg opened (device.entryBlock.map Buf.data)

def EntryPlaces.entries (places : EntryPlaces cfg device log) : List WireEntry :=
  ((places.finished ++ [places.current]).flatMap EntryPouch.blocks ++ places.waiting).flatten ++ places.opened

theorem Delivering.places (delivering : Delivering cfg device log) :
    ∃ places : EntryPlaces cfg device log, places.entries.map WireEntry.encode = writtenEntries log := by
  obtain ⟨done, opened, kept⟩ := delivering.entries
  have passed := kept.passed
  rw [delivering.processing.conserved, supplied_transports] at passed
  have arePouches : ∀ packets ∈ (supplied log).finished ++ [(supplied log).current], IsPouch log packets := by
    simp only [List.mem_append, List.mem_singleton]
    rintro packets (finished | rfl)
    · exact delivering.shaped.finished packets finished
    · exact delivering.shaped.current
  obtain ⟨pouches, waiting, rfl, encoded, headed, areWaiting⟩ := pouches_encoded arePouches passed
  rw [List.map_append, List.map_eq_append_iff] at encoded
  obtain ⟨finished, last, rfl, isFinished, isLast⟩ := encoded
  obtain ⟨current, rfl, isCurrent⟩ := List.map_eq_singleton_iff.mp isLast
  exact ⟨⟨finished, current, waiting, opened, headed, isFinished, isCurrent, areWaiting, kept.pending⟩, kept.accepted⟩

/-- Every entry that was accepted is in one place, and they are in the order in which they were accepted. The
transfers carry the pouches that were finished, each with its header and its blocks, and the transfer that is not
over goes on with the current one. -/
theorem entries_reach_peer (plaintext : cfg.encryption = .none) (payload : cfg.maxBlockPayloadSize ≤ 32768)
    (ops : List (PortOp Key)) (writes : ∀ op ∈ ops, ∀ call ∈ op.calls, call.WritesEntries cfg)
    (sized : SizesFit cfg (History.run (portStep cfg) ⟨.boot Key cfg, []⟩ ops).log)
    (undisturbed : TakesOutsideStart (libraryLog (History.run (portStep cfg) ⟨.boot Key cfg, []⟩ ops).log)) :
    let reached := History.run (portStep cfg) ⟨.boot Key cfg, []⟩ ops
    ∃ places : EntryPlaces cfg reached.state.device (libraryLog reached.log), ∃ transfers rest data,
      places.entries.map WireEntry.encode = writtenEntries (libraryLog reached.log) ∧
      readPackets reached.log = transfers.flatten ++ rest ∧
      List.Forall₂ (CarriesData true) transfers (places.finished.map EntryPouch.encode) ∧
      Begun rest data ∧ data ++ reached.state.device.uplink.unread = places.current.encode := by
  have delivered := (delivering_preserved payload).run_port .boot ops writes sized undisturbed (.boot plaintext)
  obtain ⟨places, every⟩ := delivered.places
  obtain ⟨transfers, rest, data, carrying, _⟩ := (run_transferring ops sized).carrying
  refine ⟨places, transfers, rest, data, every, carrying.packets, ?_, carrying.begun, ?_⟩
  · rw [places.isFinished]
    exact carrying.complete
  · rw [places.isCurrent]
    exact carrying.current

end Entries

def sampleEntryWrite : PortOp Unit := .other ⟨.entryWrite sampleEntry, rfl⟩

-- The pouch with the first entry is read to its end, and the second entry is written in between.
def entryOps : List (PortOp Unit) :=
  [sampleEntryWrite, peerRead 4] ++ closeOps ++ [peerRead 8, sampleEntryWrite, peerRead 16]

theorem peerRead_writes (cfg : Config) (len : Nat) : ∀ call ∈ (peerRead len).calls, call.WritesEntries cfg := by
  simp [PortOp.calls, peerRead, PeerRead.start, DeviceOp.WritesEntries]

theorem entryOps_write : ∀ op ∈ entryOps, ∀ call ∈ op.calls, call.WritesEntries (defaultConfig .none) := by
  have entry : sampleEntry.Valid (defaultConfig .none) := by
    constructor
    · rintro path ⟨⟩
      decide
    · rintro data ⟨⟩
      decide
  have write : ∀ call ∈ sampleEntryWrite.calls, call.WritesEntries (defaultConfig .none) := by
    simpa [PortOp.calls, sampleEntryWrite, DeviceOp.WritesEntries] using entry
  have close : ∀ op ∈ closeOps, ∀ call ∈ op.calls, call.WritesEntries (defaultConfig .none) := by
    simp [closeOps, closeCalls, PortOp.calls, DeviceOp.WritesEntries, workerRun]
  intro op member
  simp only [entryOps, List.mem_append, List.mem_cons, List.not_mem_nil, or_false] at member
  rcases member with ((rfl | rfl) | member) | rfl | rfl | rfl
  · exact write
  · exact peerRead_writes _ _
  · exact close op member
  · exact peerRead_writes _ _
  · exact write
  · exact peerRead_writes _ _

theorem entryOps_delivered :
    let reached := portRun entryOps
    (supplied (libraryLog reached.log)).finished.length = 1 ∧ (writtenEntries (libraryLog reached.log)).length = 2 ∧
      ∃ places : EntryPlaces (defaultConfig .none) reached.state.device (libraryLog reached.log),
        ∃ transfers rest data, places.entries.map WireEntry.encode = writtenEntries (libraryLog reached.log) ∧
          readPackets reached.log = transfers.flatten ++ rest ∧
          List.Forall₂ (CarriesData true) transfers (places.finished.map EntryPouch.encode) ∧
          Begun rest data ∧ data ++ reached.state.device.uplink.unread = places.current.encode :=
  ⟨by decide +kernel, by decide +kernel,
    entries_reach_peer rfl ((Config.maxBlockPayloadSize_le _).trans (by decide)) entryOps entryOps_write
      (by decide +kernel) (by decide +kernel)⟩

end Pouch
