import Pouch.BleGatt.DownlinkCharacteristic
import Pouch.BlockDecoding
import Pouch.Device.UplinkFifo
import Pouch.DownlinkDelivery

set_option autoImplicit false

/-!
# A pouch over the downlink characteristic

A peer writes the packets of a pouch. The blocks that come out of the pipeline are those of the pouch, in
order, whatever else the device does in the meantime.
-/

namespace Pouch

open ByteMemory
open Reassembly

variable {Key : Type} {cfg : Config} {decode : List UInt8 → Option (EncryptionInfo × Nat)}

/-- The writes of a run are the packets of a pouch, from the first one on and in order, and the calls out
of the library do what they should. -/
structure Writes (pouch : SentPouch cfg decode) (packets : List (List UInt8)) (ops : List (BleOp Key)) :
    Prop where
  carried : CarriesData true packets pouch.stream
  inOrder : writtenPackets ops <+: packets.map some
  works : ∀ write, BleOp.write write ∈ ops → write.Works decode

def HeaderTaken (pouch : SentPouch cfg decode) (reached : History (Device Key) PipelineEvent) :
    BleOp Key → Prop
  | .write write => ∀ packet, packetizerDecode write.buf = .ok packet →
      packet.isFirst = true ∨ reached.state.downlink.pouchHeader = false →
        (reached.state.crypto.downlinkStart cfg pouch.info write.call.keys).1 = none
  | .other _ _ => True

section Run

variable {pouch : SentPouch cfg decode} {packets : List (List UInt8)} {ops : List (BleOp Key)}
  {device : Device Key}

@[simp] theorem writtenPackets_snoc (ops : List (BleOp Key)) (op : BleOp Key) :
    writtenPackets (ops ++ [op]) = writtenPackets ops ++ op.packet?.toList := by
  cases op <;> simp [writtenPackets, BleOp.packet?]

theorem Writes.init {op : BleOp Key} (writes : Writes pouch packets (ops ++ [op])) :
    Writes pouch packets ops := by
  refine ⟨writes.carried, ?_, fun write member => writes.works write (List.mem_append_left _ member)⟩
  have inOrder := writes.inOrder
  rw [writtenPackets_snoc] at inOrder
  exact (List.prefix_append _ _).trans inOrder

theorem Writes.last {write : DownlinkWrite Key} (writes : Writes pouch packets (ops ++ [.write write])) :
    ∃ packet, packets[(writtenPackets ops).length]? = some packet ∧ write.buf = some packet := by
  obtain ⟨rest, inOrder⟩ := writes.inOrder
  have place := congrArg (fun list => list[(writtenPackets ops).length]?) inOrder
  simp only [writtenPackets_snoc, BleOp.packet?, Option.toList_some, List.append_assoc, List.cons_append,
    List.nil_append, List.getElem?_map] at place
  rw [List.getElem?_append_right (Nat.le_refl _), Nat.sub_self, List.getElem?_cons_zero] at place
  cases found : packets[(writtenPackets ops).length]? with
  | none => simp [found] at place
  | some packet => exact ⟨packet, rfl, by simpa [found] using place⟩

theorem pushedBlocks_pipeline (log : List PipelineEvent) (events : List Event) :
    pushedBlocks (log ++ events.filterMap Event.pipeline) = pushedBlocks log := by
  have silent : (events.filterMap Event.pipeline).flatMap PipelineEvent.pushes = [] := by
    rw [List.flatMap_eq_nil_iff]
    intro event member
    obtain ⟨reported, _, from'⟩ := List.mem_filterMap.mp member
    cases reported <;> simp only [Event.pipeline, Option.some.injEq, reduceCtorEq] at from' <;>
      exact from' ▸ rfl
  simp [pushedBlocks, silent]

theorem decryptBlocks_frames (call : BlockCall Key) (device : Device Key) :
    (device.decryptBlocks cfg call).1.frames = device.frames := by
  have kept : ∀ decrypted, (device.downlink.decryptBlocks decrypted).pouchBuf = device.downlink.pouchBuf ∧
      (device.downlink.decryptBlocks decrypted).pouchHeader = device.downlink.pouchHeader := by
    intro decrypted
    cases decrypted <;> exact ⟨rfl, rfl⟩
  simp only [Device.decryptBlocks, Device.frames]
  split_ifs
  · split
    · rw [(kept none).1, (kept none).2]
    · simp only [kept]
  · rfl

theorem consumeBlocks_frames (device : Device Key) : device.consumeBlocks.1.frames = device.frames := by
  simp only [Device.consumeBlocks, Device.frames]
  split_ifs
  · split <;> rfl
  · rfl

variable (cfg) in
theorem other_frames (formed : device.Formed cfg) (op : DeviceOp Key) (other : op.isDownlinkCall = false) :
    (bleStep cfg device (.other op other)).1.frames = device.frames := by
  cases otherStep_cases formed op other with
  | decrypt call is =>
    subst is
    exact decryptBlocks_frames call device
  | consume is =>
    subst is
    exact consumeBlocks_frames device
  | elsewhere kept silent =>
    simp only [bleStep, Device.frames]
    rw [kept]

theorem Writes.arriving (writes : Writes pouch packets ops)
    (fits : pouch.header.length ≤ cfg.maxCiphertextBlockSize) (formed : device.Formed cfg)
    (pipelined : Pipelined device [])
    (taken : History.Meets (bleStep cfg) (HeaderTaken pouch) ⟨device, []⟩ ops) :
    let run := History.run (bleStep cfg) ⟨device, []⟩ ops
    run.state.Formed cfg ∧ Pipelined run.state run.log ∧
      Arriving pouch (packets.map List.tail) (writtenPackets ops).length run.state.frames
        (pushedBlocks run.log) := by
  induction ops using List.reverseRecOn with
  | nil => exact ⟨formed, pipelined, fun _ => rfl, fun some => absurd some (Nat.lt_irrefl 0)⟩
  | append_singleton ops op ih =>
    rw [History.meets_append] at taken
    obtain ⟨reachedFormed, reachedPipelined, arriving⟩ := ih writes.init taken.1
    have next := bleStep_formed reachedFormed op
    have nextPipelined := bleStep_pipelined reachedFormed reachedPipelined op
    simp only [History.run_append, History.run_cons, History.run_nil, History.record]
    refine ⟨next, nextPipelined, ?_⟩
    cases op with
    | other op other =>
      have same := other_frames cfg reachedFormed op other
      rw [same, writtenPackets_snoc]
      simpa [bleStep, pushedBlocks_pipeline, BleOp.packet?] using arriving
    | write write =>
      obtain ⟨packet, place, buf⟩ := writes.last
      obtain ⟨decoded, decodes, payload, first⟩ := writes.carried.packet _ packet place
      have headerTaken := taken.2.1 decoded (by rw [buf]; exact decodes)
      have payloadPlace : (packets.map List.tail)[(writtenPackets ops).length]? = some decoded.payload := by
        rw [List.getElem?_map, place, payload]
        rfl
      obtain ⟨framed, queued, arrives⟩ := arriving.write writes.carried.whole fits write
        (writes.works write (by simp)) decoded (by rw [buf]; exact decodes) payloadPlace first headerTaken
      simpa [bleStep, queued.framed, BleOp.packet?] using arrives

theorem Arriving.complete {payloads : List (List UInt8)} {frames : Downlink Unit} {blocks : List Buf}
    (arriving : Arriving pouch payloads payloads.length frames blocks) (some' : payloads ≠ [])
    (whole : payloads.flatten = pouch.stream) (fits : pouch.header.length ≤ cfg.maxCiphertextBlockSize)
    (short : ∀ payload ∈ payloads, ∀ block ∈ pouch.blocks, payload.length ≤ block.bytes.length) :
    blocks.map (·.data.contents) = pouch.blockBytes := by
  obtain ⟨state, received, _, handed⟩ := arriving.standing (List.length_pos_iff.mpr some')
  rw [handed, List.take_eq_self_iff, pouch.blockBytes_length]
  by_cases empty : pouch.blocks.length = 0
  next => omega
  next =>
    have capacity : pouch.framing.bound 0 ≤ pouch.framing.capacity := pouch.bound_zero.trans_le fits
    have last := arrived_arrivals payloads payloads.length
    rw [List.take_length, whole] at last
    have all : pouch.framing.bound pouch.framing.count ≤ arrived payloads (arrivals payloads payloads.length) := by
      rw [last]
      exact Nat.le_of_eq pouch.bound_count
    refine (received.le_iff capacity (arrived_zero payloads) pouch.blocks.length (by omega) (Nat.le_refl _)).mpr ?_
    refine pouch.framing.completeAt_of_short _ _ (Nat.pos_of_ne_zero empty) all (arrived_zero payloads) ?_
    intro index within earlier before
    rw [arrivals_length] at before
    have frame : pouch.framing.bound (index + 1) = pouch.framing.bound index + pouch.blocks[index].bytes.length :=
      pouch.bound_succ index within
    have grown : arrived payloads (earlier + 1) = arrived payloads earlier + (pieces payloads)[earlier].length :=
      flatten_take_succ (pieces payloads) earlier before
    have piece := List.mem_filter.mp (List.getElem_mem before)
    have fitting := short _ piece.1 pouch.blocks[index] (List.getElem_mem within)
    omega

theorem CarriesData.nonempty {data : List UInt8} (carries : CarriesData true packets data) : packets ≠ [] := by
  obtain ⟨parts, others, decoded, _, firsts, _⟩ := carries
  rintro rfl
  have lengths := congrArg List.length firsts
  have same := congrArg List.length decoded
  simp only [List.length_map, List.length_cons, List.length_nil] at lengths same
  omega

-- No packet brings more than the shortest block of the pouch is long.
def ShortPackets (pouch : SentPouch cfg decode) (packets : List (List UInt8)) : Prop :=
  ∀ packet ∈ packets, ∀ block ∈ pouch.blocks, packet.tail.length ≤ block.bytes.length

theorem Writes.complete (writes : Writes pouch packets ops) (all : writtenPackets ops = packets.map some)
    {frames : Downlink Unit} {blocks : List Buf}
    (arriving : Arriving pouch (packets.map List.tail) (writtenPackets ops).length frames blocks)
    (fits : pouch.header.length ≤ cfg.maxCiphertextBlockSize) (short : ShortPackets pouch packets) :
    blocks.map (·.data.contents) = pouch.blockBytes := by
  have count : (writtenPackets ops).length = (packets.map List.tail).length := by
    rw [all, List.length_map, List.length_map]
  rw [count] at arriving
  refine arriving.complete (by simpa using writes.carried.nonempty) writes.carried.whole fits ?_
  rintro _ member block inside
  obtain ⟨packet, packetMember, rfl⟩ := List.mem_map.mp member
  exact short packet packetMember block inside

end Run

def DownlinkState.AtRest (state : DownlinkState) : Prop :=
  state.decryptWork = false ∧ state.consumeWork = false

def DownlinkState.Drained (state : DownlinkState) : Prop :=
  state.decryptQueue = [] ∧ state.consumeQueue = []

section Rest

variable {device : Device Key} {log : List PipelineEvent}

theorem DownlinkState.Armed.atRest_iff {state : DownlinkState} (armed : state.Armed) :
    state.AtRest ↔ state.Drained := by
  have decrypt := armed.decrypt
  have consume := armed.consume
  simp only [DownlinkState.AtRest, DownlinkState.Drained]
  rw [← Bool.not_eq_true, ← Bool.not_eq_true, decrypt, consume, not_not, not_not]

theorem Pipelined.restart (pipelined : Pipelined device log) (drained : device.downlink.Drained) :
    Pipelined device [] ∧ device.downlink.Armed := by
  obtain ⟨undecrypted, unconsumed⟩ := drained
  have decryptIdle : device.downlink.decryptWork = false := by
    by_contra pending
    exact pipelined.decrypt (by simpa using pending) undecrypted
  have consumeIdle : device.downlink.consumeWork = false := by
    by_contra pending
    exact pipelined.consume (by simpa using pending) unconsumed
  exact ⟨.empty device undecrypted unconsumed decryptIdle consumeIdle,
    ⟨by simp [decryptIdle, undecrypted], by simp [consumeIdle, unconsumed]⟩⟩

theorem run_pipelined (ops : List (BleOp Key)) (formed : device.Formed cfg) (pipelined : Pipelined device log) :
    let run := History.run (bleStep cfg) ⟨device, log⟩ ops
    run.state.Formed cfg ∧ Pipelined run.state run.log := by
  apply History.run_invariant (bleStep cfg) (fun _ _ => True)
    (fun reached => reached.state.Formed cfg ∧ Pipelined reached.state reached.log) _ _ ⟨formed, pipelined⟩
  · exact History.meets_of_forall _ _ _ _ fun _ _ _ => trivial
  · intro reached op _ both
    exact ⟨bleStep_formed both.1 op, bleStep_pipelined both.1 both.2 op⟩

end Rest

section Plaintext

variable {device : Device Key} {log : List PipelineEvent} {ops : List (BleOp Key)}

/-- Without encryption every block that is decrypted is passed on as it is, and no handler is ever
forgotten. -/
structure PassesThrough (device : Device Key) (log : List PipelineEvent) : Prop where
  plaintext : device.crypto.isPlaintext = true
  armed : device.downlink.Armed
  unchanged : ∀ decryption ∈ decryptions log, decryption.2 = some decryption.1

theorem bleStep_build (formed : device.Formed cfg) (op : BleOp Key) :
    (bleStep cfg device op).1.crypto.isPlaintext = device.crypto.isPlaintext := by
  have kept (op : DeviceOp Key) (start : Device Key) (startFormed : start.Formed cfg) :
      (start.step cfg op).1.crypto.isPlaintext = start.crypto.isPlaintext := by
    have call := Device.step_call cfg start op startFormed
    apply call.trace.invariant (fun reached _ => reached.crypto.isPlaintext = start.crypto.isPlaintext)
      (fun _ => True) _ (fun _ _ => trivial) [] rfl
    exact fun before event after _ small _ holds => small.build.trans holds
  cases op with
  | other op other => exact kept op device formed
  | write write =>
    simp only [bleStep]
    rcases downlinkWrite_calls cfg device write with same | ⟨packet, _, pushed⟩
    next => rw [same]
    next =>
      rw [pushed]
      cases packet.isFirst with
      | false => exact kept (.downlinkPush write.call packet.payload) device formed
      | true =>
        have started := (Device.step_traced cfg).formed device (.downlinkStart write.malloc) formed
        exact (kept (.downlinkPush write.call packet.payload) _ started).trans
          (kept (.downlinkStart write.malloc) device formed)

theorem PassesThrough.decrypted (passes : PassesThrough device log) (call : BlockCall Key) :
    PassesThrough (device.decryptBlocks cfg call).1
      (log ++ (device.decryptBlocks cfg call).2.filterMap Event.pipeline) := by
  obtain ⟨plaintext, armed, unchanged⟩ := passes
  have build := (decryptBlocks_effect cfg call device).2.1
  have none' : device.crypto = .none := by
    cases crypto : device.crypto with
    | none => rfl
    | saead state => simp [crypto, Crypto.isPlaintext] at plaintext
  refine ⟨build.trans plaintext, ?_, ?_⟩
  · simp only [Device.decryptBlocks]
    split_ifs with pending
    · cases queue : device.downlink.decryptQueue with
      | nil => exact absurd queue (armed.decrypt.mp pending)
      | cons block rest =>
        simp only [none', Crypto.decryptBlock]
        exact decrypted_armed block
    · exact armed
  · simp only [Device.decryptBlocks]
    split_ifs with pending
    · cases queue : device.downlink.decryptQueue with
      | nil => exact absurd queue (armed.decrypt.mp pending)
      | cons block rest =>
        simpa [none', Crypto.decryptBlock, Event.pipeline, PipelineEvent.decryption, or_imp, forall_and] using
          unchanged
    · simpa using unchanged

theorem PassesThrough.consumed (passes : PassesThrough device log) :
    PassesThrough device.consumeBlocks.1 (log ++ device.consumeBlocks.2.filterMap Event.pipeline) := by
  obtain ⟨plaintext, armed, unchanged⟩ := passes
  simp only [Device.consumeBlocks]
  split_ifs with pending
  · cases queue : device.downlink.consumeQueue with
    | nil => exact absurd queue (armed.consume.mp pending)
    | cons block rest =>
      refine ⟨plaintext, consumed_armed armed, ?_⟩
      simpa [Event.pipeline, PipelineEvent.decryption] using unchanged
  · exact ⟨plaintext, armed, by simpa using unchanged⟩

theorem PassesThrough.step (formed : device.Formed cfg) (passes : PassesThrough device log) (op : BleOp Key) :
    PassesThrough (bleStep cfg device op).1 (log ++ (bleStep cfg device op).2) := by
  have build := (bleStep_build formed op).trans passes.plaintext
  cases op with
  | write write =>
    obtain ⟨blocks, queued⟩ := downlinkWrite_queued cfg device write
    refine ⟨build, queued.armed passes.armed, ?_⟩
    simpa [bleStep] using passes.unchanged
  | other op other =>
    cases otherStep_cases formed op other with
    | decrypt call is =>
      subst is
      exact passes.decrypted call
    | consume is =>
      subst is
      exact passes.consumed
    | elsewhere kept silent =>
      refine ⟨build, ?_, ?_⟩
      · simp only [bleStep, kept]
        exact passes.armed
      · simpa [bleStep, silent] using passes.unchanged

theorem PassesThrough.run (ops : List (BleOp Key)) (formed : device.Formed cfg) (passes : PassesThrough device log) :
    let run := History.run (bleStep cfg) ⟨device, log⟩ ops
    PassesThrough run.state run.log := by
  have both := History.run_invariant (bleStep cfg) (fun _ _ => True)
    (fun reached => reached.state.Formed cfg ∧ PassesThrough reached.state reached.log) ⟨device, log⟩ ops
    ⟨formed, passes⟩ (History.meets_of_forall _ _ _ _ fun _ _ _ => trivial) ?_
  · exact both.2
  · intro reached op _ both
    exact ⟨bleStep_formed both.1 op, both.2.step both.1 op⟩

theorem PassesThrough.contents (passes : PassesThrough device log) :
    (decryptions log).filterMap Prod.snd = (decryptions log).map Prod.fst := by
  have unchanged := passes.unchanged
  generalize decryptions log = made at unchanged
  induction made with
  | nil => rfl
  | cons decryption rest ih =>
    have first := unchanged decryption List.mem_cons_self
    rw [List.filterMap_cons, first, List.map_cons]
    exact congrArg _ (ih fun other member => unchanged other (List.mem_cons_of_mem _ member))

theorem PassesThrough.conserved (passes : PassesThrough device log) (pipelined : Pipelined device log) :
    pushedBlocks log = consumedBlocks log ++ device.downlink.consumeQueue ++ device.downlink.decryptQueue := by
  rw [← pipelined.results, passes.contents, pipelined.pushed]

end Plaintext

section Delivery

theorem boot_restart (earlier : List (BleOp Key))
    (drained : (History.run (bleStep cfg) ⟨.boot Key cfg, []⟩ earlier).state.downlink.Drained) :
    let before := (History.run (bleStep cfg) ⟨.boot Key cfg, []⟩ earlier).state
    before.Formed cfg ∧ Pipelined before [] ∧ before.downlink.Armed := by
  have empty : Pipelined (Device.boot Key cfg) [] := .empty _ rfl rfl rfl rfl
  obtain ⟨formed, pipelined⟩ := run_pipelined earlier (Device.boot_formed cfg) empty
  exact ⟨formed, pipelined.restart drained⟩

theorem boot_plaintext (plaintext : cfg.encryption = .none) (earlier : List (BleOp Key)) :
    (History.run (bleStep cfg) ⟨.boot Key cfg, []⟩ earlier).state.crypto.isPlaintext = true := by
  have both := History.run_invariant (bleStep cfg) (fun _ _ => True)
    (fun reached => reached.state.Formed cfg ∧ reached.state.crypto.isPlaintext = true) ⟨.boot Key cfg, []⟩
    earlier ⟨Device.boot_formed cfg, ?_⟩ (History.meets_of_forall _ _ _ _ fun _ _ _ => trivial) ?_
  · exact both.2
  · simp [Device.boot, Crypto.boot, plaintext, Crypto.isPlaintext]
  · intro reached op _ both
    exact ⟨bleStep_formed both.1 op, (bleStep_build both.1 op).trans both.2⟩

theorem plaintext_taken (pouch : SentPouch cfg decode) (id : List UInt8) (announces : pouch.info = .plaintext id)
    (device : Device Key) (formed : device.Formed cfg) (plaintext : device.crypto.isPlaintext = true)
    (ops : List (BleOp Key)) : History.Meets (bleStep cfg) (HeaderTaken pouch) ⟨device, []⟩ ops := by
  apply (History.meets_iff_of_invariant (bleStep cfg) (HeaderTaken pouch) (fun _ _ => True)
    (fun reached => reached.state.Formed cfg ∧ reached.state.crypto.isPlaintext = true) ⟨device, []⟩ ops
    ⟨formed, plaintext⟩ ?_ ?_).mpr
  · exact History.meets_of_forall _ _ _ _ fun _ _ _ => trivial
  · intro reached op both
    refine iff_of_true ?_ trivial
    cases op with
    | other op other => trivial
    | write write =>
      intro packet _ _
      cases crypto : reached.state.crypto with
      | none => rw [announces, Crypto.downlinkStart]
      | saead state => simp [crypto, Crypto.isPlaintext] at both
  · intro reached op _ both
    exact ⟨bleStep_formed both.1 op, (bleStep_build both.1 op).trans both.2⟩

theorem encodes_of_contents (bufs : List Buf) (blocks : List WireBlock)
    (received : bufs.map (·.data.contents) = blocks.map WireBlock.encode)
    (small : ∀ block ∈ blocks, block.payload.length < 65536) :
    List.Forall₂ Encodes (bufs.map Buf.data) blocks := by
  rw [List.forall₂_map_left_iff]
  induction bufs generalizing blocks with
  | nil =>
    obtain rfl : blocks = [] := by simpa using received.symm
    exact .nil
  | cons buf rest ih =>
    cases blocks with
    | nil => simp at received
    | cons block blocks =>
      simp only [List.map_cons, List.cons.injEq] at received
      have later := ih blocks received.2 fun other member => small other (List.mem_cons_of_mem _ member)
      exact .cons ⟨received.1, small block List.mem_cons_self⟩ later

theorem calls_of_contents (bufs : List Buf) (blocks : List WireBlock)
    (received : bufs.map (·.data.contents) = blocks.map WireBlock.encode)
    (small : ∀ block ∈ blocks, block.payload.length < 65536) :
    ∃ fuel, handleBlocks cfg fuel (bufs.map Buf.data) = some (blocks.flatMap WireBlock.calls) := by
  have encodes := encodes_of_contents bufs blocks received small
  refine ⟨65538, handleBlocks_encoded _ blocks _ encodes ?_⟩
  refine forall_mem_of_forall₂ encodes fun buf block one => ?_
  have length := one.small
  rw [one.bytes]
  omega

theorem payload_small (pouch : SentPouch cfg decode) (blocks : List WireBlock)
    (encoded : pouch.blockBytes = blocks.map WireBlock.encode) :
    ∀ block ∈ blocks, block.payload.length < 65536 := by
  intro block member
  have inside : block.encode ∈ pouch.blockBytes := encoded ▸ List.mem_map_of_mem member
  obtain ⟨frame, _, same⟩ := List.mem_map.mp inside
  have lengths := congrArg List.length same
  rw [frame.bytes_length, WireBlock.encode, List.length_append, putBe16_length] at lengths
  have field := frame.field
  omega

/-- A pouch that a peer writes in packets reaches the handlers of a build without encryption, from every
state in which no block is left of the pouches before it and with any steps of the other parties in between:
what has been consumed is always a beginning of the pouch, and all of it once no handler is pending any more.
No packet may carry more than the shortest block. -/
theorem plaintext_pouch_over_ble (plaintext : cfg.encryption = .none) (earlier ops : List (BleOp Key))
    (pouch : SentPouch cfg decode) (packets : List (List UInt8)) (id : List UInt8)
    (announces : pouch.info = .plaintext id) (fits : pouch.header.length ≤ cfg.maxCiphertextBlockSize)
    (drained : (History.run (bleStep cfg) ⟨.boot Key cfg, []⟩ earlier).state.downlink.Drained)
    (writes : Writes pouch packets ops) :
    let before := (History.run (bleStep cfg) ⟨.boot Key cfg, []⟩ earlier).state
    let run := History.run (bleStep cfg) ⟨before, []⟩ ops
    let consumed := consumedBlocks run.log
    consumed.map (·.data.contents) <+: pouch.blockBytes ∧
      (writtenPackets ops = packets.map some → ShortPackets pouch packets → run.state.downlink.AtRest →
        consumed.map (·.data.contents) = pouch.blockBytes ∧
          ∀ blocks : List WireBlock, pouch.blockBytes = blocks.map WireBlock.encode →
            ∃ fuel, handleBlocks cfg fuel (consumed.map Buf.data) = some (blocks.flatMap WireBlock.calls)) := by
  intro before run consumed
  obtain ⟨formed, empty, armed⟩ := boot_restart earlier drained
  have build := boot_plaintext plaintext earlier
  have taken := plaintext_taken pouch id announces before formed build ops
  obtain ⟨_, pipelined, arriving⟩ := writes.arriving fits formed empty taken
  have passes : PassesThrough run.state run.log := PassesThrough.run ops formed ⟨build, armed, by simp [decryptions]⟩
  have conserved := passes.conserved pipelined
  constructor
  · by_cases begun : (writtenPackets ops).length = 0
    next =>
      have nothing := arriving.unbegun begun
      rw [conserved, List.append_assoc] at nothing
      have none' : consumed = [] := (List.append_eq_nil_iff.mp nothing).1
      rw [none']
      exact List.nil_prefix
    next =>
      obtain ⟨state, _, _, handed⟩ := arriving.standing (Nat.pos_of_ne_zero begun)
      rw [conserved, List.append_assoc, List.map_append] at handed
      exact (List.prefix_append _ _).trans (handed ▸ List.take_prefix _ _)
  · intro all short rest
    obtain ⟨undecrypted, unconsumed⟩ := passes.armed.atRest_iff.mp rest
    rw [undecrypted, unconsumed, List.append_nil, List.append_nil] at conserved
    have received : consumed.map (·.data.contents) = pouch.blockBytes := by
      change (consumedBlocks run.log).map _ = _
      rw [← conserved]
      exact writes.complete all arriving fits short
    refine ⟨received, fun blocks encoded => ?_⟩
    exact calls_of_contents consumed blocks (received.trans encoded) (payload_small pouch blocks encoded)

end Delivery

section Sample

def markerDecode (bytes : List UInt8) : Option (EncryptionInfo × Nat) :=
  if sampleHeader.isPrefixOf bytes then some (.plaintext [0x61], sampleHeader.length) else none

def sentPouch : SentPouch (defaultConfig .none) markerDecode where
  header := sampleHeader
  info := .plaintext [0x61]
  blocks := [emptyEntryBlock, emptyEntryBlock]
  decoded := by
    intro tail
    simp [decodingOnly, markerDecode]
  undecoded := by decide
  accepted := rfl

def sentPackets : List (List UInt8) :=
  [[0x01, 0x82, 0x01, 0x82], [0x00, 0x00, 0x61, 0x61], [0x00, 0x00, 0x01, 0xc0], [0x02, 0x00, 0x01, 0xc0]]

def sampleWrite (packet : List UInt8) : BleOp Unit :=
  .write
    { buf := some packet
      malloc := some fun _ => 0
      call :=
        { decode := markerDecode
          keys := ⟨fun _ _ _ => none, fun _ => none⟩
          malloc := fun _ => some fun _ => 0 } }

def sampleDecrypt : BleOp Unit := .other (.decryptBlocks ⟨none, fun _ => none⟩) rfl

def sampleConsume : BleOp Unit := .other .consumeBlocks rfl

-- The first block is on its way through the pipeline when the last packet comes.
def sampleTransfer : List (BleOp Unit) :=
  [sampleWrite [0x01, 0x82, 0x01, 0x82], sampleWrite [0x00, 0x00, 0x61, 0x61],
    sampleWrite [0x00, 0x00, 0x01, 0xc0], sampleDecrypt, sampleWrite [0x02, 0x00, 0x01, 0xc0], sampleConsume,
    sampleDecrypt, sampleConsume]

theorem sampleTransfer_writes : Writes sentPouch sentPackets sampleTransfer := by
  refine ⟨⟨[⟨true, false, [0x82, 0x01, 0x82]⟩, ⟨false, false, [0x00, 0x61, 0x61]⟩, ⟨false, false, [0x00, 0x01, 0xc0]⟩,
    ⟨false, true, [0x00, 0x01, 0xc0]⟩], 3, rfl, by decide, rfl, rfl⟩, ?_, ?_⟩
  · exact List.prefix_refl _
  · intro write member
    simp only [sampleTransfer, sampleWrite, sampleDecrypt, sampleConsume, List.mem_cons, List.not_mem_nil,
      BleOp.write.injEq, reduceCtorEq, false_or, or_false] at member
    rcases member with rfl | rfl | rfl | rfl <;> exact ⟨rfl, rfl, fun _ => rfl⟩

theorem sampleTransfer_delivered :
    let run := History.run (bleStep (defaultConfig .none)) ⟨.boot Unit (defaultConfig .none), []⟩ sampleTransfer
    (consumedBlocks run.log).map (·.data.contents) = [[0x00, 0x01, 0xc0], [0x00, 0x01, 0xc0]] := by
  have delivered := plaintext_pouch_over_ble rfl [] sampleTransfer sentPouch sentPackets [0x61] rfl
    (by decide) ⟨rfl, rfl⟩ sampleTransfer_writes
  exact (delivered.2 rfl (by unfold ShortPackets; decide) ⟨by decide +kernel, by decide +kernel⟩).1

end Sample

end Pouch
