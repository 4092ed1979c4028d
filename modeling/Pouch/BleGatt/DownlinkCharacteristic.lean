import Pouch.BleGatt.PacketizerRoundTrip
import Pouch.Device.DownlinkArrival
import Pouch.Device.DownlinkBounds
import Pouch.Device.DownlinkPipeline

set_option autoImplicit false

/-!
# The downlink characteristic

The writes of a peer, between which the other parties of the device take their steps in any order. The
packets of one pouch bring its blocks into the pipeline.
-/

namespace Pouch

open ByteMemory
open Reassembly

section Model

variable {Key : Type} (cfg : Config)

-- A write, with the outcomes of the calls out of the library. `none` is a NULL buffer.
structure DownlinkWrite (Key : Type) where
  buf : Option (List UInt8)
  malloc : Option Memory
  call : PushCall Key

inductive WriteResult where
  -- `BT_ATT_ERR_UNLIKELY`
  | attError
  | written (len : Nat)
  deriving DecidableEq

def downlinkWrite (write : DownlinkWrite Key) (device : Device Key) :
    WriteResult × Device Key × List Event :=
  match packetizerDecode write.buf with
  | .error _ => (.attError, device, [])
  | .ok packet =>
    let (started, starts) :=
      if packet.isFirst then device.pouchDownlinkStart write.malloc else (device, [])
    let (pushed, pushes) := started.pouchDownlinkPush cfg write.call packet.payload
    -- With the last packet `pouch_downlink_finish` is called, which does nothing.
    (.written (write.buf.getD []).length, pushed, starts ++ pushes)

def DeviceOp.isDownlinkCall : DeviceOp Key → Bool
  | .downlinkStart _ | .downlinkPush _ _ => true
  | _ => false

/-- A write, or a step of another party: the characteristic is the only one that calls the downlink. -/
inductive BleOp (Key : Type) where
  | write (write : DownlinkWrite Key)
  | other (op : DeviceOp Key) (other : op.isDownlinkCall = false)

-- The blocks that a write has put behind those in the decrypt queue.
def framedBlocks (device next : Device Key) : List Buf :=
  next.downlink.decryptQueue.drop device.downlink.decryptQueue.length

def bleStep (device : Device Key) : BleOp Key → Device Key × List PipelineEvent
  | .write write =>
    let (_, next, _) := downlinkWrite cfg write device
    (next, (framedBlocks device next).map .pushed)
  | .other op _ =>
    let (next, events) := device.step cfg op
    (next, events.filterMap Event.pipeline)

def BleOp.packet? : BleOp Key → Option (Option (List UInt8))
  | .write made => some made.buf
  | .other _ _ => none

def writtenPackets (ops : List (BleOp Key)) : List (Option (List UInt8)) := ops.filterMap BleOp.packet?

end Model

section Pipeline

variable {Key : Type} {cfg : Config} {device next : Device Key} {log : List PipelineEvent}

@[simp] theorem pushedBlocks_pushed (blocks : List Buf) :
    pushedBlocks (log ++ blocks.map .pushed) = pushedBlocks log ++ blocks := by
  have one : (blocks.map PipelineEvent.pushed).flatMap PipelineEvent.pushes = blocks := by
    induction blocks with
    | nil => rfl
    | cons block rest ih => simp [PipelineEvent.pushes, ih]
  simp [pushedBlocks, one]

@[simp] theorem decryptions_pushed (blocks : List Buf) :
    decryptions (log ++ blocks.map .pushed) = decryptions log := by
  simp [decryptions, PipelineEvent.decryption, List.flatMap_map]

@[simp] theorem consumedBlocks_pushed (blocks : List Buf) :
    consumedBlocks (log ++ blocks.map .pushed) = consumedBlocks log := by
  simp [consumedBlocks, PipelineEvent.consumes, List.flatMap_map]

theorem Queued.framed {blocks : List Buf} (queued : Queued device.downlink next.downlink blocks) :
    framedBlocks device next = blocks := by
  simp [framedBlocks, queued.decryptQueue]

theorem Pipelined.queued (pipelined : Pipelined device log) {blocks : List Buf}
    (queued : Queued device.downlink next.downlink blocks) :
    Pipelined next (log ++ blocks.map .pushed) := by
  constructor
  next => simp [pipelined.pushed, queued.decryptQueue]
  next => simp [pipelined.results, queued.consumeQueue]
  next =>
    intro pending
    rw [queued.decryptWork, Bool.or_eq_true] at pending
    rw [queued.decryptQueue]
    rcases pending with before | framed
    next => exact List.append_ne_nil_of_left_ne_nil (pipelined.decrypt before) _
    next => exact List.append_ne_nil_of_right_ne_nil _ (by simpa using framed)
  next =>
    rw [queued.consumeWork, queued.consumeQueue]
    exact pipelined.consume
  next => simpa using pipelined.notNull

theorem Pipelined.empty (device : Device Key) (undecrypted : device.downlink.decryptQueue = [])
    (unconsumed : device.downlink.consumeQueue = []) (decryptIdle : device.downlink.decryptWork = false)
    (consumeIdle : device.downlink.consumeWork = false) : Pipelined device [] :=
  ⟨by simp [pushedBlocks, decryptions, undecrypted], by simp [decryptions, consumedBlocks, unconsumed],
    by simp [decryptIdle], by simp [consumeIdle], by simp⟩

variable (cfg device) in
theorem downlinkWrite_decoded (write : DownlinkWrite Key) (packet : Packet)
    (decoded : packetizerDecode write.buf = .ok packet) :
    (downlinkWrite cfg write device).2.1 =
      ((if packet.isFirst then (device.pouchDownlinkStart write.malloc).1 else device).pouchDownlinkPush
        cfg write.call packet.payload).1 := by
  simp only [downlinkWrite, decoded]
  split_ifs <;> rfl

variable (cfg device) in
theorem downlinkWrite_calls (write : DownlinkWrite Key) :
    let next := (downlinkWrite cfg write device).2.1
    next = device ∨ ∃ packet, packetizerDecode write.buf = .ok packet ∧
      next = ((if packet.isFirst then (device.pouchDownlinkStart write.malloc).1 else device).pouchDownlinkPush
        cfg write.call packet.payload).1 := by
  cases decoded : packetizerDecode write.buf with
  | error err => exact .inl (by simp only [downlinkWrite, decoded])
  | ok packet => exact .inr ⟨packet, rfl, downlinkWrite_decoded cfg device write packet decoded⟩

variable (cfg device) in
theorem downlinkWrite_queued (write : DownlinkWrite Key) :
    ∃ blocks, Queued device.downlink (downlinkWrite cfg write device).2.1.downlink blocks := by
  rcases downlinkWrite_calls cfg device write with same | ⟨packet, _, pushed⟩
  next =>
    rw [same]
    exact ⟨[], .none rfl rfl rfl rfl⟩
  next =>
    rw [pushed]
    cases packet.isFirst with
    | true =>
      obtain ⟨_, started⟩ := device.pouchDownlinkStart_refines write.malloc
      obtain ⟨_, blocks, queued, _⟩ := (device.pouchDownlinkStart write.malloc).1.pouchDownlinkPush_refines
        cfg write.call packet.payload
      exact ⟨[] ++ blocks, started.trans queued⟩
    | false =>
      obtain ⟨_, blocks, queued, _⟩ := device.pouchDownlinkPush_refines cfg write.call packet.payload
      exact ⟨blocks, queued⟩

theorem Device.Formed.write (formed : device.Formed cfg) (write : DownlinkWrite Key) :
    (downlinkWrite cfg write device).2.1.Formed cfg := by
  rcases downlinkWrite_calls cfg device write with same | ⟨packet, _, pushed⟩
  next =>
    rw [same]
    exact formed
  next =>
    rw [pushed]
    cases packet.isFirst with
    | true =>
      have started := (Device.step_traced cfg).formed device (.downlinkStart write.malloc) formed
      exact (Device.step_traced cfg).formed _ (.downlinkPush write.call packet.payload) started
    | false => exact (Device.step_traced cfg).formed _ (.downlinkPush write.call packet.payload) formed

theorem bleStep_formed (formed : device.Formed cfg) (op : BleOp Key) : (bleStep cfg device op).1.Formed cfg := by
  cases op with
  | write write => exact formed.write write
  | other op other => exact (Device.step_traced cfg).formed device op formed

inductive OtherStep (cfg : Config) (device : Device Key) (op : DeviceOp Key) : Prop
  | decrypt (call : BlockCall Key) (is : op = .decryptBlocks call)
  | consume (is : op = .consumeBlocks)
  | elsewhere (kept : (device.step cfg op).1.downlink = device.downlink)
    (silent : (device.step cfg op).2.filterMap Event.pipeline = [])

theorem otherStep_cases (formed : device.Formed cfg) (op : DeviceOp Key) (other : op.isDownlinkCall = false) :
    OtherStep cfg device op := by
  by_cases downlink : op.party = .downlink
  next =>
    cases op with
    | downlinkStart malloc => simp [DeviceOp.isDownlinkCall] at other
    | downlinkPush call data => simp [DeviceOp.isDownlinkCall] at other
    | decryptBlocks call => exact .decrypt call rfl
    | consumeBlocks => exact .consume rfl
    | _ => simp [DeviceOp.party] at downlink
  next =>
    have call := Device.step_call cfg device op formed
    refine .elsewhere (call.downlink_kept downlink) (List.filterMap_eq_nil_iff.mpr ?_)
    intro event member
    have elsewhere : event.party ≠ .downlink := by
      rcases Event.party_of_reportedBy (call.parties event member) with same | ⟨rfl, _⟩ | ⟨⟨block, rfl⟩, _⟩
      · rwa [same]
      · simp [Event.party]
      · simp [Event.party]
    cases event <;> first | rfl | simp [Event.party] at elsewhere

theorem bleStep_pipelined (formed : device.Formed cfg) (pipelined : Pipelined device log) (op : BleOp Key) :
    Pipelined (bleStep cfg device op).1 (log ++ (bleStep cfg device op).2) := by
  cases op with
  | write write =>
    obtain ⟨blocks, queued⟩ := downlinkWrite_queued cfg device write
    simp only [bleStep, queued.framed]
    exact pipelined.queued queued
  | other op other =>
    cases otherStep_cases formed op other with
    | decrypt call is =>
      subst is
      exact pipelined.step (.decrypt device.crypto call)
    | consume is =>
      subst is
      have stepped : Pipelined (pipelineStep cfg device .consume).1 (log ++ (pipelineStep cfg device .consume).2) :=
        pipelined.step .consume
      exact stepped
    | elsewhere kept silent =>
      simp only [bleStep, silent, List.append_nil]
      exact ⟨by rw [kept]; exact pipelined.pushed, by rw [kept]; exact pipelined.results,
        by rw [kept]; exact pipelined.decrypt, by rw [kept]; exact pipelined.consume, pipelined.notNull⟩

end Pipeline

section Pieces

def pieces (payloads : List (List UInt8)) : List (List UInt8) := payloads.filter fun payload => !payload.isEmpty

def arrivals (payloads : List (List UInt8)) (count : Nat) : Nat := (pieces (payloads.take count)).length

def arrived (payloads : List (List UInt8)) (count : Nat) : Nat := ((pieces payloads).take count).flatten.length

variable (payloads : List (List UInt8)) (count : Nat)

theorem pieces_take : pieces (payloads.take count) = (pieces payloads).take (arrivals payloads count) :=
  List.prefix_iff_eq_take.mp ((List.take_prefix count payloads).filter _)

@[simp] theorem pieces_flatten : (pieces payloads).flatten = payloads.flatten := List.flatten_filter_not_isEmpty

@[simp] theorem arrivals_zero : arrivals payloads 0 = 0 := rfl

@[simp] theorem arrived_zero : arrived payloads 0 = 0 := rfl

theorem arrivals_length : arrivals payloads payloads.length = (pieces payloads).length := by
  rw [arrivals, List.take_length]

theorem arrived_arrivals : arrived payloads (arrivals payloads count) = (payloads.take count).flatten.length := by
  rw [arrived, ← pieces_take, pieces_flatten]

variable {payloads count} {payload : List UInt8}

theorem arrivals_succ (place : payloads[count]? = some payload) :
    arrivals payloads (count + 1) = arrivals payloads count + if payload.isEmpty then 0 else 1 := by
  rw [arrivals, List.take_add_one, place]
  cases payload <;> simp [arrivals, pieces]

theorem payload_slice (place : payloads[count]? = some payload) :
    payload = slice payloads.flatten (arrived payloads (arrivals payloads count))
      (arrived payloads (arrivals payloads (count + 1))) := by
  obtain ⟨within, rfl⟩ := List.getElem?_eq_some_iff.mp place
  rw [arrived_arrivals, arrived_arrivals]
  exact (slice_flatten payloads count within).symm

theorem arrived_succ (place : payloads[count]? = some payload) :
    arrived payloads (arrivals payloads (count + 1)) =
      arrived payloads (arrivals payloads count) + payload.length := by
  obtain ⟨within, rfl⟩ := List.getElem?_eq_some_iff.mp place
  rw [arrived_arrivals, arrived_arrivals]
  exact flatten_take_succ payloads count within

theorem arrived_le (payloads : List (List UInt8)) (count : Nat) : arrived payloads count ≤ payloads.flatten.length := by
  have whole := congrArg List.flatten (List.take_append_drop count (pieces payloads))
  rw [pieces_flatten] at whole
  rw [arrived, ← whole, List.flatten_append, List.length_append]
  exact Nat.le_add_right _ _

end Pieces

section Arrival

variable {Key : Type} {cfg : Config} {decode : List UInt8 → Option (EncryptionInfo × Nat)}

structure Arriving (pouch : SentPouch cfg decode) (payloads : List (List UInt8)) (count : Nat)
    (frames : Downlink Unit) (blocks : List Buf) : Prop where
  unbegun : count = 0 → blocks = []
  standing : 0 < count → ∃ state, pouch.framing.Received (arrived payloads) (arrivals payloads count) state ∧
    StandsAt pouch state (arrived payloads (arrivals payloads count)) frames ∧
    blocks.map (·.data.contents) = pouch.blockBytes.take (state.getD 0)

structure DownlinkWrite.Works (write : DownlinkWrite Key)
    (decode : List UInt8 → Option (EncryptionInfo × Nat)) : Prop where
  starts : write.malloc.isSome = true
  pushes : write.call.Works decode

variable {pouch : SentPouch cfg decode} {payloads : List (List UInt8)} {count : Nat} {device : Device Key}
  {blocks : List Buf}

theorem Arriving.push (state : Option Nat)
    (received : pouch.framing.Received (arrived payloads) (arrivals payloads count) state)
    (stands : StandsAt pouch state (arrived payloads (arrivals payloads count)) device.frames)
    (whole : payloads.flatten = pouch.stream) (fits : pouch.header.length ≤ cfg.maxCiphertextBlockSize)
    (payload : List UInt8) (place : payloads[count]? = some payload) (call : PushCall Key)
    (works : call.Works decode)
    (accepted : device.downlink.pouchHeader = false →
      (device.crypto.downlinkStart cfg pouch.info call.keys).1 = none) :
    let next := (device.pouchDownlinkPush cfg call payload).1
    ∃ after framed, pouch.framing.Received (arrived payloads) (arrivals payloads (count + 1)) after ∧
      StandsAt pouch after (arrived payloads (arrivals payloads (count + 1))) next.frames ∧
      Queued device.downlink next.downlink framed ∧
      pouch.blockBytes.take (state.getD 0) ++ framed.map (·.data.contents) =
        pouch.blockBytes.take (after.getD 0) := by
  have capacity : pouch.framing.bound 0 ≤ pouch.framing.capacity := pouch.bound_zero.trans_le fits
  have ending : arrived payloads (arrivals payloads (count + 1)) ≤ pouch.stream.length :=
    whole ▸ arrived_le payloads _
  have grown := arrived_succ place
  have piece := payload_slice place
  rw [whole] at piece
  have next := arrivals_succ place
  cases payload with
  | nil =>
    -- An empty payload is pushed in vain.
    simp only [List.isEmpty_nil, if_true, Nat.add_zero] at next
    refine ⟨state, [], next ▸ received, next ▸ stands, .none rfl rfl rfl rfl, by simp⟩
  | cons byte rest =>
    simp only [List.isEmpty_cons, Bool.false_eq_true, if_false] at next
    simp only [List.length_cons] at grown
    have headerless : state = none → (device.crypto.downlinkStart cfg pouch.info call.keys).1 = none := by
      rintro rfl
      exact accepted stands.1
    obtain ⟨after, framed, receives, afterStands, queued, conserved⟩ := device.pouchDownlinkPush_arrives pouch
      call works state headerless _ _ fits stands (received.between capacity (arrived_zero payloads))
      (by omega : _ < arrived payloads (arrivals payloads (count + 1))) ending
    rw [← piece] at afterStands queued
    have bounded : arrived payloads (arrivals payloads (count + 1)) ≤ pouch.framing.bound pouch.framing.count :=
      Nat.le_trans ending (Nat.le_of_eq pouch.bound_count.symm)
    refine ⟨after, framed, ?_, afterStands, queued, conserved⟩
    rw [next] at grown bounded receives ⊢
    exact .next _ _ _ received (by omega) bounded receives

theorem Arriving.write (arriving : Arriving pouch payloads count device.frames blocks)
    (whole : payloads.flatten = pouch.stream) (fits : pouch.header.length ≤ cfg.maxCiphertextBlockSize)
    (write : DownlinkWrite Key) (works : write.Works decode) (packet : Packet)
    (decoded : packetizerDecode write.buf = .ok packet) (place : payloads[count]? = some packet.payload)
    (first : packet.isFirst = decide (count = 0))
    (accepted : packet.isFirst = true ∨ device.downlink.pouchHeader = false →
      (device.crypto.downlinkStart cfg pouch.info write.call.keys).1 = none) :
    let next := (downlinkWrite cfg write device).2.1
    ∃ framed, Queued device.downlink next.downlink framed ∧
      Arriving pouch payloads (count + 1) next.frames (blocks ++ framed) := by
  rw [downlinkWrite_decoded cfg device write packet decoded]
  by_cases begun : count = 0
  next =>
    subst begun
    have isFirst : packet.isFirst = true := by simpa using first
    obtain ⟨memory, allocated⟩ := Option.isSome_iff_exists.mp works.starts
    obtain ⟨started, untouched⟩ := device.pouchDownlinkStart_refines write.malloc
    have fresh : StandsAt pouch none 0 (device.pouchDownlinkStart write.malloc).1.frames :=
      ⟨rfl, rfl, ⟨0, memory⟩, (congrArg Downlink.pouchBuf started).trans (by rw [allocated]; rfl), by simp⟩
    have atStart : pouch.framing.Received (arrived payloads) (arrivals payloads 0) none := .start
    obtain ⟨after, framed, received, stands, queued, conserved⟩ := Arriving.push none atStart fresh whole fits
      packet.payload place write.call works.pushes (fun _ => accepted (.inl isFirst))
    have nothing := arriving.unbegun rfl
    simp only [isFirst, if_true]
    refine ⟨[] ++ framed, untouched.trans queued, nofun, fun _ => ⟨after, received, stands, ?_⟩⟩
    rw [nothing]
    simpa using conserved
  next =>
    have isFirst : packet.isFirst = false := by simpa [begun] using first
    obtain ⟨state, received, stands, handed⟩ := arriving.standing (Nat.pos_of_ne_zero begun)
    obtain ⟨after, framed, receivedAfter, standsAfter, queued, conserved⟩ := Arriving.push state received stands
      whole fits packet.payload place write.call works.pushes (fun header => accepted (.inr header))
    simp only [isFirst, Bool.false_eq_true, if_false]
    refine ⟨framed, queued, nofun, fun _ => ⟨after, receivedAfter, standsAfter, ?_⟩⟩
    rw [List.map_append, handed, conserved]

end Arrival

section Packets

variable {packets : List (List UInt8)} {data : List UInt8}

theorem packetizerDecode_payload (packet : List UInt8) (decoded : Packet)
    (decodes : packetizerDecode (some packet) = .ok decoded) : decoded.payload = packet.tail := by
  cases packet with
  | nil => cases decodes
  | cons flags payload =>
    cases decodes
    rfl

theorem CarriesData.whole {fresh : Bool} (carries : CarriesData fresh packets data) :
    (packets.map List.tail).flatten = data := by
  obtain ⟨parts, others, decoded, whole, -, -⟩ := carries
  have payloads : packets.map List.tail = parts.map (·.payload) := by
    clear whole
    induction packets generalizing parts with
    | nil =>
      obtain rfl : parts = [] := by simpa using decoded.symm
      rfl
    | cons packet rest ih =>
      cases parts with
      | nil => simp at decoded
      | cons part parts =>
        simp only [List.map_cons, List.cons.injEq] at decoded
        rw [List.map_cons, List.map_cons, packetizerDecode_payload packet part decoded.1]
        exact congrArg _ (ih parts decoded.2)
  rw [payloads, whole]

theorem CarriesData.packet (carries : CarriesData true packets data) (count : Nat) (packet : List UInt8)
    (place : packets[count]? = some packet) :
    ∃ decoded, packetizerDecode (some packet) = .ok decoded ∧ decoded.payload = packet.tail ∧
      decoded.isFirst = decide (count = 0) := by
  obtain ⟨parts, others, decoded, _, firsts, _⟩ := carries
  have here := congrArg (fun list => list[count]?) decoded
  simp only [List.getElem?_map, place, Option.map_some] at here
  cases found : parts[count]? with
  | none => simp [found] at here
  | some part =>
    simp only [found, Option.map_some, Option.some.injEq] at here
    refine ⟨part, here, packetizerDecode_payload packet part here, ?_⟩
    have mark := congrArg (fun list => list[count]?) firsts
    simp only [List.getElem?_map, found, Option.map_some] at mark
    cases count with
    | zero => simpa using mark
    | succ count =>
      rw [List.getElem?_cons_succ, List.getElem?_replicate] at mark
      split_ifs at mark with within
      simpa using mark

end Packets

end Pouch
